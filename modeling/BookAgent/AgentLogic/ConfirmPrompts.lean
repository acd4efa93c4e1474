import Mathlib.Logic.Function.Basic
import BookAgent.AgentLogic.OrderTracker
import BookAgent.CloudAgent.DvpGc
import BookAgent.Lib.Run
import BookAgent.Lib.Text

/-!
# Confirmation prompts

`confirm_with` (`confirm.rs`): prompts take turns at the terminal, each with a bounded wait for its turn
and for its answer. A prompt has its own lock, which some prompts share, and all share the lines typed.
The steps of any number of prompts come in any order, between lines typed at any time.
-/

namespace BookAgent.AgentLogic

open BookAgent.Lib BookAgent.CloudAgent

/-- The bounds of `confirm_with`, and how `limit` is written in a message. -/
structure ConfirmRule where
  limit : Nat
  grace : Nat
  limitText : String

/-- The bounds that `confirm_transaction` passes. -/
def confirmTransaction : ConfirmRule := ⟨seconds 120, seconds 2, "120s"⟩

/-- How many lines were typed, and the time. -/
structure Mark where
  lines : Nat
  time : Nat
  deriving DecidableEq

/-- Neither lines nor time go back. -/
def Mark.Before (a b : Mark) : Prop := a.lines ≤ b.lines ∧ a.time ≤ b.time

theorem Mark.Before.trans {a b c : Mark} (hab : a.Before b) (hbc : b.Before c) : a.Before c :=
  ⟨Nat.le_trans hab.1 hbc.1, Nat.le_trans hab.2 hbc.2⟩

theorem Mark.before_refl (a : Mark) : a.Before a := ⟨Nat.le_refl _, Nat.le_refl _⟩

structure TypedLine where
  no : Nat
  time : Nat
  text : String
  deriving DecidableEq

inductive ConfirmError
  /-- `Unanswered` -/
  | unanswered (text : String)
  | other (text : String)
  deriving DecidableEq

/-- How a prompt that was asked ended. -/
inductive TurnOutcome
  | answered (line : TypedLine)
  | unanswered
  | closed
  /-- Its caller gave up. -/
  | dropped
  deriving DecidableEq

inductive PromptPhase
  | idle
  /-- It waits for its lock. -/
  | queued (turnBy : Nat)
  /-- It has its lock, and waits for the lines. -/
  | locked (turnBy : Nat)
  /-- It has the lines, and drops those that are there. -/
  | draining
  /-- It found no line left, writes its question and waits for a line. -/
  | asked (since : Mark)
  /-- It has timed out, and drops what is typed until the grace is over. -/
  | quiet (since : Mark) (quietUntil : Nat)
  /-- It ended without being asked, with its error unless its caller gave up. -/
  | turnless (error : Option ConfirmError)
  | ended (since till : Mark) (outcome : TurnOutcome)
  deriving DecidableEq

namespace PromptPhase

/-- It holds the lines. -/
def reading : PromptPhase → Bool
  | draining | asked _ | quiet .. => true
  | _ => false

/-- Its call has not returned. -/
def running : PromptPhase → Bool
  | idle | turnless _ | ended .. => false
  | _ => true

/-- Since when the lines typed are for it, and until when. -/
def turn : PromptPhase → Option (Mark × Option Mark)
  | asked since | quiet since _ => some (since, none)
  | ended since till _ => some (since, some till)
  | _ => none

theorem reading_of_turn {phase : PromptPhase} {since : Mark} (h : phase.turn = some (since, none)) :
    phase.reading = true := by
  cases phase with
  | asked _ | quiet _ _ => rfl
  | ended _ _ _ | idle | queued _ | locked _ | draining | turnless _ => simp [turn] at h

end PromptPhase

structure ConfirmPrompt where
  lock : Nat
  action : String
  details : String
  phase : PromptPhase

/-- The line approves; of other letters none has one of these as its lower case. -/
def confirms (input : String) : Bool :=
  let trimmed := lowerCase (String.ofList (trimChars input.toList))
  trimmed == "y" || trimmed == "yes"

namespace ConfirmPrompt

variable (r : ConfirmRule) (c : ConfirmPrompt)

def about : String := c.action ++ " (" ++ c.details ++ ")"

def noTurn : ConfirmError :=
  .unanswered ("no confirmation slot within " ++ r.limitText ++ " — declined: " ++ c.about)

/-- Why there are no lines: stdin is not a terminal, or its reader did not start. -/
def noAnswers : Option String → ConfirmError
  | none => .unanswered ("Non-interactive stdin — auto-declining confirmation for: " ++ c.about)
  | some e => .other ("Failed to start the stdin reader: " ++ e)

def decided : TurnOutcome → Option (Except ConfirmError Unit)
  | .answered line =>
    some (if confirms line.text then .ok () else .error (.other ("User declined: " ++ c.about)))
  | .closed => some (.error (.unanswered ("stdin closed — declined: " ++ c.about)))
  | .unanswered =>
    some (.error (.unanswered ("no answer within " ++ r.limitText ++ " — declined: " ++ c.about)))
  | .dropped => none

/-- What the call returned. -/
def result : Option (Except ConfirmError Unit) :=
  match c.phase with
  | .turnless error => error.map .error
  | .ended _ _ outcome => c.decided r outcome
  | _ => none

end ConfirmPrompt

structure PromptWorld where
  now : Nat
  /-- The number of lines typed. -/
  typed : Nat
  /-- The reader of stdin has ended. -/
  closed : Bool
  lines : List TypedLine
  /-- The prompt that holds a lock, and the one that holds the lines. -/
  locks : Nat → Option Nat
  reader : Option Nat
  prompts : Nat → ConfirmPrompt

inductive PromptEvent
  | tick (span : Nat)
  | type (text : String)
  | close
  | call (p lock : Nat) (action details : String)
  | lock (p : Nat)
  | noTurn (p : Nat)
  | noAnswers (p : Nat) (why : Option String)
  | take (p : Nat)
  | drain (p : Nat)
  | ask (p : Nat)
  | answer (p : Nat)
  | endOfInput (p : Nat)
  | expire (p : Nat)
  | late (p : Nat)
  | giveUp (p : Nat)
  | drop (p : Nat)

namespace PromptWorld

variable (r : ConfirmRule) (w : PromptWorld)

def fresh : PromptWorld where
  now := 0
  typed := 0
  closed := false
  lines := []
  locks := fun _ => none
  reader := none
  prompts := fun _ => ⟨0, "", "", .idle⟩

def mark : Mark := ⟨w.typed, w.now⟩

def turn (p : Nat) : Option (Mark × Option Mark) := (w.prompts p).phase.turn

def put (p : Nat) (phase : PromptPhase) : PromptWorld :=
  { w with prompts := Function.update w.prompts p { w.prompts p with phase } }

/-- The guards are dropped. -/
def release (p : Nat) : PromptWorld :=
  { w with
    locks := fun lock => if w.locks lock = some p then none else w.locks lock
    reader := if w.reader = some p then none else w.reader }

/-- The turn of a prompt is over. -/
def finish (p : Nat) (outcome : TurnOutcome) : PromptWorld :=
  match (w.prompts p).phase with
  | .asked since | .quiet since _ => (w.put p (.ended since w.mark outcome)).release p
  | _ => (w.put p (.turnless none)).release p

def apply : PromptEvent → PromptWorld
  | .tick span => { w with now := w.now + span }
  | .type text => { w with typed := w.typed + 1, lines := w.lines ++ [⟨w.typed, w.now, text⟩] }
  | .close => { w with closed := true }
  | .call p lock action details =>
    { w with prompts := Function.update w.prompts p ⟨lock, action, details, .queued (w.now + r.limit)⟩ }
  | .lock p =>
    match (w.prompts p).phase with
    | .queued turnBy =>
      { w.put p (.locked turnBy) with locks := Function.update w.locks (w.prompts p).lock (some p) }
    | _ => w
  | .noTurn p => (w.put p (.turnless (some ((w.prompts p).noTurn r)))).release p
  | .noAnswers p why => (w.put p (.turnless (some ((w.prompts p).noAnswers why)))).release p
  | .take p => { w.put p .draining with reader := some p }
  | .drain _ | .late _ => { w with lines := w.lines.tail }
  | .ask p => w.put p (.asked w.mark)
  | .answer p =>
    w.lines.head?.elim w fun line => { w.finish p (.answered line) with lines := w.lines.tail }
  | .endOfInput p => w.finish p .closed
  | .expire p =>
    match (w.prompts p).phase with
    | .asked since => w.put p (.quiet since (w.now + r.grace))
    | _ => w
  | .giveUp p => w.finish p .unanswered
  | .drop p => w.finish p .dropped

/-- When a step may come. A lock that is free is taken also after the wait for it is over. -/
def Allowed : PromptEvent → Prop
  | .tick _ | .close => True
  | .type _ => w.closed = false
  | .call p _ _ _ => (w.prompts p).phase = .idle
  | .lock p => (∃ turnBy, (w.prompts p).phase = .queued turnBy) ∧ w.locks (w.prompts p).lock = none
  | .noTurn p => ∃ turnBy ≤ w.now,
    (w.prompts p).phase = .queued turnBy ∨ (w.prompts p).phase = .locked turnBy
  | .noAnswers p _ => ∃ turnBy, (w.prompts p).phase = .locked turnBy
  | .take p => (∃ turnBy, (w.prompts p).phase = .locked turnBy) ∧ w.reader = none
  | .drain p => (w.prompts p).phase = .draining ∧ w.lines ≠ []
  | .ask p => (w.prompts p).phase = .draining ∧ w.lines = []
  | .answer p => (∃ since, (w.prompts p).phase = .asked since) ∧ w.lines ≠ []
  | .endOfInput p => (∃ since, (w.prompts p).phase = .asked since) ∧ w.lines = [] ∧ w.closed = true
  | .expire p => ∃ since, (w.prompts p).phase = .asked since ∧ since.time + r.limit ≤ w.now
  | .late p => (∃ since quietUntil, (w.prompts p).phase = .quiet since quietUntil) ∧ w.lines ≠ []
  | .giveUp p => ∃ since quietUntil, (w.prompts p).phase = .quiet since quietUntil ∧
    (quietUntil ≤ w.now ∨ w.lines = [] ∧ w.closed = true)
  | .drop p => (w.prompts p).phase.running = true

/-! ## Turns -/

structure Sound : Prop where
  reading : ∀ p, (w.prompts p).phase.reading = true → w.reader = some p
  queue : ∀ line ∈ w.lines, line.no < w.typed ∧ line.time ≤ w.now
  till : ∀ p since till, w.turn p = some (since, some till) → till.Before w.mark
  /-- The lines that are there were typed for the prompt that is asked, after every turn that is over. -/
  current : ∀ p since, w.turn p = some (since, none) → since.Before w.mark ∧
    (∀ line ∈ w.lines, since.lines ≤ line.no ∧ since.time ≤ line.time) ∧
    ∀ q since' till, w.turn q = some (since', some till) → till.Before since
  apart : ∀ p q since till since' till', p ≠ q → w.turn p = some (since, some till) →
    w.turn q = some (since', some till') → till.Before since' ∨ till'.Before since
  answered : ∀ p since till line, (w.prompts p).phase = .ended since till (.answered line) →
    since.lines ≤ line.no ∧ line.no < till.lines ∧ since.time ≤ line.time
  waits : ∀ p since quietUntil, (w.prompts p).phase = .quiet since quietUntil →
    since.time + r.limit + r.grace ≤ quietUntil
  /-- A grace is cut short only when no line can come any more. -/
  waited : ∀ p since till, (w.prompts p).phase = .ended since till .unanswered →
    since.time + r.limit + r.grace ≤ till.time ∨
      w.lines = [] ∧ w.closed = true ∧
        ∀ q since' till' line, (w.prompts q).phase = .ended since' till' (.answered line) →
          till'.Before since

variable {r w}

theorem sound_fresh : fresh.Sound r where
  reading _ h := nomatch h
  queue _ h := nomatch h
  till _ _ _ h := nomatch h
  current _ _ h := nomatch h
  apart _ _ _ _ _ _ _ h := nomatch h
  answered _ _ _ _ h := nomatch h
  waits _ _ _ h := nomatch h
  waited _ _ _ h := nomatch h

theorem finish_of_turn {p : Nat} {since : Mark} {outcome : TurnOutcome}
    (h : w.turn p = some (since, none)) :
    w.finish p outcome = (w.put p (.ended since w.mark outcome)).release p := by
  cases hphase : (w.prompts p).phase with
  | asked _ | quiet _ _ | ended _ _ _ => simp_all [turn, PromptPhase.turn, finish]
  | idle | queued _ | locked _ | draining | turnless _ => simp [turn, hphase, PromptPhase.turn] at h

theorem finish_of_turnless {p : Nat} {outcome : TurnOutcome} (h : w.turn p = none) :
    w.finish p outcome = (w.put p (.turnless none)).release p := by
  cases hphase : (w.prompts p).phase with
  | asked _ | quiet _ _ => simp [turn, hphase, PromptPhase.turn] at h
  | ended _ _ _ | idle | queued _ | locked _ | draining | turnless _ => simp [finish, hphase]

namespace Sound

variable {w' : PromptWorld} {p : Nat} {since : Mark}

/-- Time passes, lines come and go. -/
theorem pass (h : w.Sound r) (hprompts : w'.prompts = w.prompts) (hreader : w'.reader = w.reader)
    (hmark : w.mark.Before w'.mark)
    (hlines : ∀ line ∈ w'.lines, line ∈ w.lines ∨ w.mark = ⟨line.no, line.time⟩)
    (hqueue : ∀ line ∈ w'.lines, line.no < w'.typed ∧ line.time ≤ w'.now)
    (hclosed : w.lines = [] → w.closed = true → w'.lines = [] ∧ w'.closed = true) : w'.Sound r where
  reading q hq := by
    rw [hprompts] at hq
    exact hreader.trans (h.reading q hq)
  queue := hqueue
  till q since till hq := by
    simp only [turn, hprompts] at hq
    exact (h.till q since till hq).trans hmark
  current q since hq := by
    simp only [turn, hprompts] at hq ⊢
    obtain ⟨hsince, hqueued, hearlier⟩ := h.current q since hq
    refine ⟨hsince.trans hmark, fun line hline => ?_, hearlier⟩
    rcases hlines line hline with hold | hnew
    · exact hqueued line hold
    · rw [hnew] at hsince
      exact hsince
  apart q q' since till since' till' hne hq hq' := by
    simp only [turn, hprompts] at hq hq'
    exact h.apart q q' since till since' till' hne hq hq'
  answered q since till line hq := h.answered q since till line (hprompts ▸ hq)
  waits q since quietUntil hq := h.waits q since quietUntil (hprompts ▸ hq)
  waited q since till hq := by
    rw [hprompts] at hq ⊢
    rcases h.waited q since till hq with hlong | ⟨hnil, hshut, hbefore⟩
    · exact .inl hlong
    · obtain ⟨hnil', hshut'⟩ := hclosed hnil hshut
      exact .inr ⟨hnil', hshut', hbefore⟩

/-- A prompt that is not asked goes on, and is not asked then. -/
theorem move (h : w.Sound r) {phase : PromptPhase} (hlines : w'.lines = w.lines)
    (hmark : w'.mark = w.mark) (hclosed : w'.closed = w.closed)
    (hself : (w'.prompts p).phase = phase) (hothers : ∀ q ≠ p, w'.prompts q = w.prompts q)
    (hturn : phase.turn = none)
    (hreading : phase.reading = true → w'.reader = some p)
    (hreader : ∀ q ≠ p, w.reader = some q → w'.reader = some q) : w'.Sound r := by
  have hwas : ∀ q turn, w'.turn q = some turn → q ≠ p ∧ w.turn q = some turn := by
    intro q turn hq
    by_cases heq : q = p
    · simp only [PromptWorld.turn, heq, hself, hturn] at hq
      cases hq
    · exact ⟨heq, by simpa only [PromptWorld.turn, hothers q heq] using hq⟩
  have hended : ∀ q since till outcome, (w'.prompts q).phase = .ended since till outcome →
      (w.prompts q).phase = .ended since till outcome := by
    intro q since till outcome hq
    by_cases heq : q = p
    · rw [heq, hself] at hq
      rw [hq] at hturn
      cases hturn
    · rwa [hothers q heq] at hq
  have htime : w'.now = w.now ∧ w'.typed = w.typed := by
    injection hmark with htyped hnow
    exact ⟨hnow, htyped⟩
  refine ⟨fun q hq => ?_, ?_, fun q since till hq => ?_, fun q since hq => ?_,
    fun q q' since till since' till' hne hq hq' => ?_, fun q since till line hq => ?_,
    fun q since quietUntil hq => ?_, fun q since till hq => ?_⟩
  · by_cases heq : q = p
    · rw [heq, hself] at hq
      rw [heq]
      exact hreading hq
    · rw [hothers q heq] at hq
      exact hreader q heq (h.reading q hq)
  · rw [hlines, htime.1, htime.2]
    exact h.queue
  · rw [hmark]
    exact h.till q since till (hwas q _ hq).2
  · obtain ⟨hsince, hqueued, hearlier⟩ := h.current q since (hwas q _ hq).2
    rw [hmark, hlines]
    exact ⟨hsince, hqueued, fun q' since' till hq' => hearlier q' since' till (hwas q' _ hq').2⟩
  · exact h.apart q q' since till since' till' hne (hwas q _ hq).2 (hwas q' _ hq').2
  · exact h.answered q since till line (hended q _ _ _ hq)
  · have hne : q ≠ p := fun heq => by
      rw [heq, hself] at hq
      rw [hq] at hturn
      cases hturn
    rw [hothers q hne] at hq
    exact h.waits q since quietUntil hq
  · rw [hlines, hclosed]
    rcases h.waited q since till (hended q _ _ _ hq) with hlong | ⟨hnil, hshut, hbefore⟩
    · exact .inl hlong
    · exact .inr ⟨hnil, hshut, fun q' since' till' line hq' =>
        hbefore q' since' till' line (hended q' _ _ _ hq')⟩

/-- One prompt is asked at a time. -/
theorem alone (h : w.Sound r) (hturn : w.turn p = some (since, none)) {q : Nat} {since' : Mark}
    (hq : w.turn q = some (since', none)) : q = p := by
  have hp := h.reading p (PromptPhase.reading_of_turn hturn)
  have hq := h.reading q (PromptPhase.reading_of_turn hq)
  exact Option.some.inj (hq.symm.trans hp)

/-- The turn of a prompt is over: it took a line, or it waited, or no line can come. -/
theorem finish (h : w.Sound r) {outcome : TurnOutcome} (hturn : w.turn p = some (since, none))
    (hlines : ∀ line ∈ w'.lines, line ∈ w.lines) (hmark : w'.mark = w.mark)
    (hclosed : w'.closed = w.closed)
    (hself : (w'.prompts p).phase = .ended since w.mark outcome)
    (hothers : ∀ q ≠ p, w'.prompts q = w.prompts q)
    (hanswered : ∀ line, outcome = .answered line → line ∈ w.lines)
    (hwaited : outcome = .unanswered →
      since.time + r.limit + r.grace ≤ w.now ∨ w.lines = [] ∧ w.closed = true) : w'.Sound r := by
  obtain ⟨hsince, hqueued, hearlier⟩ := h.current p since hturn
  have hwas : ∀ q ≠ p, w'.turn q = w.turn q := fun q hne => by
    simp only [PromptWorld.turn, hothers q hne]
  have hnew : w'.turn p = some (since, some w.mark) := by
    simp only [PromptWorld.turn, hself, PromptPhase.turn]
  have hnone : ∀ q s, w'.turn q ≠ some (s, none) := fun q s hq => by
    by_cases heq : q = p
    · rw [heq, hnew] at hq
      cases hq
    · exact heq (h.alone hturn ((hwas q heq).symm.trans hq))
  have htime : w'.now = w.now ∧ w'.typed = w.typed := by
    injection hmark with htyped hnow
    exact ⟨hnow, htyped⟩
  refine ⟨fun q hq => ?_, fun line hline => ?_, fun q s o hq => ?_, fun q s hq => absurd hq (hnone q s),
    fun q q' s o s' o' hne hq hq' => ?_, fun q s o line hq => ?_, fun q s u hq => ?_,
    fun q s o hq => ?_⟩
  · by_cases heq : q = p
    · rw [heq, hself] at hq
      cases hq
    · rw [hothers q heq] at hq
      have hp := h.reading p (PromptPhase.reading_of_turn hturn)
      exact absurd (Option.some.inj ((h.reading q hq).symm.trans hp)) heq
  · rw [htime.1, htime.2]
    exact h.queue line (hlines line hline)
  · rw [hmark]
    by_cases heq : q = p
    · rw [heq, hnew] at hq
      cases hq
      exact w.mark.before_refl
    · exact h.till q s o ((hwas q heq).symm.trans hq)
  · by_cases heq : q = p
    · rw [heq, hnew] at hq
      cases hq
      have hne' : q' ≠ p := fun heq' => hne (heq.trans heq'.symm)
      exact .inr (hearlier q' s' o' ((hwas q' hne').symm.trans hq'))
    · by_cases heq' : q' = p
      · rw [heq', hnew] at hq'
        cases hq'
        exact .inl (hearlier q s o ((hwas q heq).symm.trans hq))
      · exact h.apart q q' s o s' o' hne ((hwas q heq).symm.trans hq) ((hwas q' heq').symm.trans hq')
  · by_cases heq : q = p
    · rw [heq, hself] at hq
      cases hq
      have hline := hanswered line rfl
      obtain ⟨hno, htyped⟩ := hqueued line hline
      exact ⟨hno, (h.queue line hline).1, htyped⟩
    · exact h.answered q s o line (hothers q heq ▸ hq)
  · by_cases heq : q = p
    · rw [heq, hself] at hq
      cases hq
    · exact h.waits q s u (hothers q heq ▸ hq)
  · rw [hclosed]
    have hnil : w.lines = [] → w'.lines = [] := fun hnil =>
      List.eq_nil_iff_forall_not_mem.mpr fun line hline => by
        have := hlines line hline
        simp [hnil] at this
    by_cases heq : q = p
    · rw [heq, hself] at hq
      cases hq
      refine (hwaited rfl).imp id fun ⟨hempty, hshut⟩ => ⟨hnil hempty, hshut, fun q' s' o' line hq' => ?_⟩
      by_cases heq' : q' = p
      · rw [heq', hself] at hq'
        cases hq'
      · rw [hothers q' heq'] at hq'
        exact hearlier q' s' o' (by simp only [PromptWorld.turn, hq', PromptPhase.turn])
    · rcases h.waited q s o (hothers q heq ▸ hq) with hlong | ⟨hempty, hshut, hbefore⟩
      · exact .inl hlong
      · refine .inr ⟨hnil hempty, hshut, fun q' s' o' line hq' => ?_⟩
        by_cases heq' : q' = p
        · rw [heq', hself] at hq'
          cases hq'
          have hline := hanswered line rfl
          simp [hempty] at hline
        · exact hbefore q' s' o' line (hothers q' heq' ▸ hq')

/-- The prompt that holds the lines is asked, or times out. -/
theorem keep (h : w.Sound r) {phase : PromptPhase} (hholds : (w.prompts p).phase.reading = true)
    (hturn : phase.turn = some (since, none))
    (hsince : since.Before w.mark ∧ (∀ line ∈ w.lines, since.lines ≤ line.no ∧ since.time ≤ line.time) ∧
      ∀ q s o, w.turn q = some (s, some o) → o.Before since)
    (hquiet : ∀ s quietUntil, phase = .quiet s quietUntil → s.time + r.limit + r.grace ≤ quietUntil) :
    (w.put p phase).Sound r := by
  have hself : ((w.put p phase).prompts p).phase = phase := by simp [put]
  have hothers : ∀ q ≠ p, (w.put p phase).prompts q = w.prompts q := fun q hne =>
    Function.update_of_ne hne ..
  have hnew : (w.put p phase).turn p = some (since, none) := by
    simp only [PromptWorld.turn, hself, hturn]
  have hwas : ∀ q turn, (w.put p phase).turn q = some turn → turn ≠ (since, none) →
      w.turn q = some turn := fun q turn hq hne => by
    by_cases heq : q = p
    · rw [heq, hnew] at hq
      exact absurd (Option.some.inj hq).symm hne
    · simpa only [PromptWorld.turn, hothers q heq] using hq
  have hended : ∀ q s o outcome, ((w.put p phase).prompts q).phase = .ended s o outcome →
      (w.prompts q).phase = .ended s o outcome := fun q s o outcome hq => by
    by_cases heq : q = p
    · rw [heq, hself] at hq
      rw [hq] at hturn
      simp [PromptPhase.turn] at hturn
    · rwa [hothers q heq] at hq
  refine ⟨fun q hq => ?_, h.queue, fun q s o hq => h.till q s o (hwas q _ hq (by simp)),
    fun q s hq => ?_, fun q q' s o s' o' hne hq hq' =>
      h.apart q q' s o s' o' hne (hwas q _ hq (by simp)) (hwas q' _ hq' (by simp)),
    fun q s o line hq => h.answered q s o line (hended q _ _ _ hq), fun q s u hq => ?_,
    fun q s o hq => ?_⟩
  · by_cases heq : q = p
    · rw [heq]
      exact h.reading p hholds
    · exact h.reading q (hothers q heq ▸ hq)
  · by_cases heq : q = p
    · rw [heq, hnew] at hq
      cases hq
      exact ⟨hsince.1, hsince.2.1, fun q' s' o' hq' => hsince.2.2 q' s' o' (hwas q' _ hq' (by simp))⟩
    · have hq : w.turn q = some (s, none) := by simpa only [PromptWorld.turn, hothers q heq] using hq
      have hp := h.reading p hholds
      have hreads := h.reading q (PromptPhase.reading_of_turn hq)
      exact absurd (Option.some.inj (hreads.symm.trans hp)) heq
  · by_cases heq : q = p
    · rw [heq, hself] at hq
      exact hquiet s u hq
    · exact h.waits q s u (hothers q heq ▸ hq)
  · exact (h.waited q s o (hended q _ _ _ hq)).imp id fun ⟨hnil, hshut, hbefore⟩ =>
      ⟨hnil, hshut, fun q' s' o' line hq' => hbefore q' s' o' line (hended q' _ _ _ hq')⟩

theorem ask (h : w.Sound r) (hphase : (w.prompts p).phase = .draining) (hempty : w.lines = []) :
    (w.apply r (.ask p)).Sound r := by
  have hholds : (w.prompts p).phase.reading = true := by rw [hphase]; rfl
  refine h.keep hholds rfl ⟨w.mark.before_refl, fun line hline => ?_, fun q s o hq => h.till q s o hq⟩
    fun _ _ hquiet => by cases hquiet
  simp [hempty] at hline

theorem expire (h : w.Sound r) (hphase : (w.prompts p).phase = .asked since)
    (hlimit : since.time + r.limit ≤ w.now) : (w.apply r (.expire p)).Sound r := by
  have hholds : (w.prompts p).phase.reading = true := by rw [hphase]; rfl
  have hturn : w.turn p = some (since, none) := by simp only [PromptWorld.turn, hphase, PromptPhase.turn]
  simp only [PromptWorld.apply, hphase]
  refine h.keep hholds rfl (h.current p since hturn) fun s quietUntil hquiet => ?_
  obtain ⟨rfl, rfl⟩ := PromptPhase.quiet.inj hquiet
  omega

/-- A line is taken. -/
theorem taken (h : w.Sound r) : Sound r { w with lines := w.lines.tail } :=
  h.pass rfl rfl w.mark.before_refl (fun _ hline => .inl (List.mem_of_mem_tail hline))
    (fun line hline => h.queue line (List.mem_of_mem_tail hline))
    fun hnil hshut => ⟨congrArg List.tail hnil, hshut⟩

/-- It ended without being asked. -/
theorem turnless (h : w.Sound r) (error : Option ConfirmError) :
    ((w.put p (.turnless error)).release p).Sound r := by
  refine h.move (p := p) rfl rfl rfl
    (congrArg ConfirmPrompt.phase (Function.update_self ..)) (fun q hne => Function.update_of_ne hne ..)
    rfl (fun hreading => by cases hreading) fun q hne hq => ?_
  simp [release, put, hq, hne]

/-- It ended after it was asked. -/
theorem over_turn (h : w.Sound r) {outcome : TurnOutcome} {lines : List TypedLine}
    (hturn : w.turn p = some (since, none)) (hlines : ∀ line ∈ lines, line ∈ w.lines)
    (hanswered : ∀ line, outcome = .answered line → line ∈ w.lines)
    (hwaited : outcome = .unanswered →
      since.time + r.limit + r.grace ≤ w.now ∨ w.lines = [] ∧ w.closed = true) :
    Sound r { w.finish p outcome with lines } := by
  have hself : ((w.put p (.ended since w.mark outcome)).prompts p).phase =
      .ended since w.mark outcome := by simp [put]
  rw [finish_of_turn hturn]
  exact h.finish hturn hlines rfl rfl hself
    (fun q hne => Function.update_of_ne hne ..) hanswered hwaited

theorem over_turn_same (h : w.Sound r) {outcome : TurnOutcome} (hturn : w.turn p = some (since, none))
    (hanswered : ∀ line, outcome = .answered line → line ∈ w.lines)
    (hwaited : outcome = .unanswered →
      since.time + r.limit + r.grace ≤ w.now ∨ w.lines = [] ∧ w.closed = true) :
    (w.finish p outcome).Sound r := by
  have hover := h.over_turn hturn (fun _ hline => hline) hanswered hwaited
  rw [finish_of_turn hturn] at hover ⊢
  exact hover

/-- A step that may come. -/
theorem apply (h : w.Sound r) {e : PromptEvent} (hallowed : w.Allowed r e) : (w.apply r e).Sound r := by
  cases e with
  | tick span =>
    refine h.pass rfl rfl ⟨Nat.le_refl _, Nat.le_add_right _ _⟩ (fun line hline => .inl hline)
      (fun line hline => ?_) fun hnil hshut => ⟨hnil, hshut⟩
    obtain ⟨hno, htime⟩ := h.queue line hline
    exact ⟨hno, Nat.le_trans htime (Nat.le_add_right _ _)⟩
  | type text =>
    refine h.pass rfl rfl ⟨Nat.le_succ _, Nat.le_refl _⟩ (fun line hline => ?_) (fun line hline => ?_)
      fun _ hshut => nomatch hshut.symm.trans hallowed
    · rcases List.mem_append.mp hline with hold | hnew
      · exact .inl hold
      · rw [List.mem_singleton.mp hnew]
        exact .inr rfl
    · rcases List.mem_append.mp hline with hold | hnew
      · obtain ⟨hno, htime⟩ := h.queue line hold
        exact ⟨Nat.lt_succ_of_lt hno, htime⟩
      · rw [List.mem_singleton.mp hnew]
        exact ⟨Nat.lt_succ_self _, Nat.le_refl _⟩
  | close =>
    exact h.pass rfl rfl (Mark.before_refl _) (fun line hline => .inl hline) h.queue
      fun hnil _ => ⟨hnil, rfl⟩
  | call p lock action details =>
    exact h.move (p := p) rfl rfl rfl (congrArg ConfirmPrompt.phase (Function.update_self ..))
      (fun q hne => Function.update_of_ne hne ..) rfl (fun hreading => nomatch hreading)
      fun _ _ hq => hq
  | lock p =>
    obtain ⟨⟨turnBy, hphase⟩, -⟩ := hallowed
    simp only [PromptWorld.apply, hphase]
    exact h.move (p := p) rfl rfl rfl (congrArg ConfirmPrompt.phase (Function.update_self ..))
      (fun q hne => Function.update_of_ne hne ..) rfl (fun hreading => nomatch hreading)
      fun _ _ hq => hq
  | noTurn p => exact h.turnless _
  | noAnswers p why => exact h.turnless _
  | take p =>
    obtain ⟨-, hfree⟩ := hallowed
    exact h.move (p := p) rfl rfl rfl (congrArg ConfirmPrompt.phase (Function.update_self ..))
      (fun q hne => Function.update_of_ne hne ..) rfl (fun _ => rfl)
      fun q _ hq => nomatch hq.symm.trans hfree
  | drain p => exact h.taken
  | late p => exact h.taken
  | ask p => exact h.ask hallowed.1 hallowed.2
  | answer p =>
    obtain ⟨⟨since, hphase⟩, hlines⟩ := hallowed
    obtain ⟨line, lines, heq⟩ := List.exists_cons_of_ne_nil hlines
    have hturn : w.turn p = some (since, none) := by simp only [turn, hphase, PromptPhase.turn]
    simp only [PromptWorld.apply, heq, List.head?_cons, Option.elim_some, List.tail_cons]
    refine h.over_turn hturn (fun l hl => ?_) (fun l hl => ?_) fun hne => nomatch hne
    · rw [heq]
      exact List.mem_cons_of_mem _ hl
    · rw [heq, TurnOutcome.answered.inj hl]
      exact List.mem_cons_self
  | endOfInput p =>
    obtain ⟨⟨since, hphase⟩, -⟩ := hallowed
    have hturn : w.turn p = some (since, none) := by simp only [turn, hphase, PromptPhase.turn]
    exact h.over_turn_same hturn (fun _ hne => nomatch hne) fun hne => nomatch hne
  | expire p =>
    obtain ⟨since, hphase, hlimit⟩ := hallowed
    exact h.expire hphase hlimit
  | giveUp p =>
    obtain ⟨since, quietUntil, hphase, hover⟩ := hallowed
    have hturn : w.turn p = some (since, none) := by simp only [turn, hphase, PromptPhase.turn]
    have hwaits := h.waits p since quietUntil hphase
    exact h.over_turn_same hturn (fun _ hne => nomatch hne) fun _ => hover.imp hwaits.trans id
  | drop p =>
    rcases hturn : w.turn p with _ | ⟨since, till⟩
    · rw [PromptWorld.apply, finish_of_turnless hturn]
      exact h.turnless _
    · cases till with
      | none => exact h.over_turn_same hturn (fun _ hne => nomatch hne) fun hne => nomatch hne
      | some till =>
        simp only [Allowed] at hallowed
        cases hphase : (w.prompts p).phase <;>
          simp [turn, hphase, PromptPhase.turn, PromptPhase.running] at hturn hallowed

end Sound

/-- A call returns approval only for a line that it took. -/
theorem answered_of_ok {c : ConfirmPrompt} (h : c.result r = some (.ok ())) :
    ∃ since till line, c.phase = .ended since till (.answered line) ∧ confirms line.text = true := by
  unfold ConfirmPrompt.result at h
  split at h
  · rename_i error _
    cases error <;> simp at h
  · rename_i since till outcome hphase
    cases outcome with
    | answered line =>
      refine ⟨since, till, line, hphase, ?_⟩
      by_contra hno
      simp [ConfirmPrompt.decided, hno] at h
    | unanswered | closed | dropped => simp [ConfirmPrompt.decided] at h
  · cases h

/-- However prompts, answers and timeouts interleave: an approval is a "y" or "yes" typed after its
prompt had dropped every earlier line, and before its turn was over. The line is then of no other
prompt's turn, and decides no other prompt; and a prompt that nobody answered before was left the whole
grace after its limit, so that what is typed late for it approves nothing. -/
theorem approvals_are_own (run : Reachable (Allowed r) (apply r) fresh w) {p : Nat}
    (hok : (w.prompts p).result r = some (.ok ())) :
    ∃ since till line, (w.prompts p).phase = .ended since till (.answered line) ∧
      confirms line.text = true ∧ since.lines ≤ line.no ∧ line.no < till.lines ∧
      since.time ≤ line.time ∧ ∀ q ≠ p, ∀ since' till',
        (w.turn q = some (since', none) → line.no < since'.lines) ∧
        (w.turn q = some (since', some till') → line.no < since'.lines ∨ till'.lines ≤ line.no) ∧
        (∀ line', (w.prompts q).phase = .ended since' till' (.answered line') → line'.no ≠ line.no) ∧
        ((w.prompts q).phase = .ended since' till' .unanswered →
          till.Before since' ∨ since'.time + r.limit + r.grace ≤ since.time) := by
  have sound : w.Sound r :=
    run.invariant (Sound r) sound_fresh fun _ _ hinv hallowed => hinv.apply hallowed
  obtain ⟨since, till, line, hphase, hconfirms⟩ := answered_of_ok hok
  obtain ⟨hsince, hover, htime⟩ := sound.answered p since till line hphase
  have hturn : w.turn p = some (since, some till) := by simp only [turn, hphase, PromptPhase.turn]
  have hother : ∀ q ≠ p, ∀ since' till', w.turn q = some (since', some till') →
      till.Before since' ∨ till'.Before since := fun q hne since' till' hq =>
    sound.apart p q since till since' till' hne.symm hturn hq
  refine ⟨since, till, line, hphase, hconfirms, hsince, hover, htime, fun q hne since' till' =>
    ⟨fun hq => ?_, fun hq => ?_, fun line' hq hsame => ?_, fun hq => ?_⟩⟩
  · have hbefore := ((sound.current q since' hq).2.2 p since till hturn).1
    omega
  · rcases hother q hne since' till' hq with ⟨hbefore, -⟩ | ⟨hafter, -⟩
    · exact .inl (by omega)
    · exact .inr (by omega)
  · obtain ⟨hsince', hover', -⟩ := sound.answered q since' till' line' hq
    rcases hother q hne since' till' (by simp only [turn, hq, PromptPhase.turn]) with
      ⟨hbefore, -⟩ | ⟨hafter, -⟩
    · omega
    · omega
  · rcases hother q hne since' till' (by simp only [turn, hq, PromptPhase.turn]) with hbefore | hafter
    · exact .inl hbefore
    · rcases sound.waited q since' till' hq with hlong | ⟨-, -, hbefore⟩
      · exact .inr (Nat.le_trans hlong hafter.2)
      · exact .inl (hbefore p since till line hphase)

end PromptWorld

section Example

namespace PromptWorld

/-- Nobody answers prompt 0 in time; prompt 1, behind it, is not approved by the late answer, but by
the one typed for it. -/
def lateAnswer : List PromptEvent :=
  [.call 0 0 "Allocate" "p1", .lock 0, .take 0, .ask 0, .tick (seconds 50), .call 1 0 "Allocate" "p2",
    .tick (seconds 70), .expire 0, .tick (seconds 1), .type "y\n", .late 0, .tick (seconds 1), .giveUp 0,
    .lock 1, .take 1, .ask 1, .type " Yes \n", .answer 1]

theorem lateAnswer_run : Reachable (Allowed confirmTransaction) (apply confirmTransaction) fresh
    (lateAnswer.foldl (apply confirmTransaction) fresh) :=
  Reachable.start.foldl ⟨rfl, ⟨⟨_, rfl⟩, rfl⟩, ⟨⟨_, rfl⟩, rfl⟩, ⟨rfl, rfl⟩, trivial, rfl, trivial,
    ⟨_, rfl, by decide +kernel⟩, trivial, rfl, ⟨⟨_, _, rfl⟩, by decide⟩, trivial,
    ⟨_, _, rfl, .inl (by decide +kernel)⟩, ⟨⟨_, rfl⟩, rfl⟩, ⟨⟨_, rfl⟩, rfl⟩, ⟨rfl, rfl⟩, rfl,
    ⟨⟨_, rfl⟩, by decide⟩, trivial⟩

theorem late_answer_dropped :
    let w := lateAnswer.foldl (apply confirmTransaction) fresh
    ∃ since till line, (w.prompts 1).phase = .ended since till (.answered line) ∧
      confirms line.text = true ∧ since.lines ≤ line.no ∧ line.no < till.lines ∧
      since.time ≤ line.time ∧ ∀ q ≠ 1, ∀ since' till',
        (w.turn q = some (since', none) → line.no < since'.lines) ∧
        (w.turn q = some (since', some till') → line.no < since'.lines ∨ till'.lines ≤ line.no) ∧
        (∀ line', (w.prompts q).phase = .ended since' till' (.answered line') → line'.no ≠ line.no) ∧
        ((w.prompts q).phase = .ended since' till' .unanswered →
          till.Before since' ∨
            since'.time + confirmTransaction.limit + confirmTransaction.grace ≤ since.time) :=
  approvals_are_own lateAnswer_run (by decide +kernel)

end PromptWorld

end Example

/-! ## The reader of stdin -/

/-- `REPEAT_WINDOW` -/
def repeatWindow : Nat := 100000000

/-- `REPEAT_BACKOFF` -/
def repeatBackoff : Nat := 250000000

/-- A read of stdin: how long it took, the line unless it ended or was unreadable, and by how much a
sleep after it is longer than asked. -/
structure StdinRead where
  took : Nat
  line : Option String
  overslept : Nat

/-- The lines that `pump_lines` sends, each with its time. -/
def pumpLines (backoff : Nat) (lastEmpty : Option Nat) (now : Nat) :
    List StdinRead → List (Nat × String)
  | [] => []
  | read :: reads =>
    let back := now + read.took
    read.line.elim
      (if lastEmpty.any fun t => decide (back - t < repeatWindow) then
        let woken := back + backoff + read.overslept
        pumpLines backoff (some woken) woken reads
      else (back, "") :: pumpLines backoff (some back) back reads)
      fun line => (back, line) :: pumpLines backoff lastEmpty back reads

/-- When the last of the reads is done with. -/
def pumpUntil (backoff : Nat) (lastEmpty : Option Nat) (now : Nat) : List StdinRead → Nat
  | [] => now
  | read :: reads =>
    let back := now + read.took
    read.line.elim
      (if lastEmpty.any fun t => decide (back - t < repeatWindow) then
        let woken := back + backoff + read.overslept
        pumpUntil backoff (some woken) woken reads
      else pumpUntil backoff (some back) back reads)
      fun _ => pumpUntil backoff lastEmpty back reads

def emptyTimes (sent : List (Nat × String)) : List Nat :=
  sent.filterMap fun s => if s.2 = "" then some s.1 else none

def typedTexts (sent : List (Nat × String)) : List String :=
  (sent.map Prod.snd).filter fun text => decide (text ≠ "")

section Pump

variable {backoff now : Nat} {lastEmpty : Option Nat} {reads : List StdinRead}

theorem typedTexts_pumpLines (h : ∀ read ∈ reads, read.line ≠ some "") :
    typedTexts (pumpLines backoff lastEmpty now reads) = reads.filterMap StdinRead.line := by
  induction reads generalizing lastEmpty now with
  | nil => rfl
  | cons read reads ih =>
    have hrest : ∀ read' ∈ reads, read'.line ≠ some "" := fun read' hmem =>
      h read' (List.mem_cons_of_mem _ hmem)
    have hread := h read List.mem_cons_self
    rcases hline : read.line with _ | line
    · simp only [pumpLines, hline, Option.elim_none, List.filterMap_cons]
      split
      · exact ih hrest
      · simpa [typedTexts] using ih hrest
    · have hne : line ≠ "" := fun heq => hread (hline.trans (congrArg some heq))
      have hcons := @ih (now + read.took) lastEmpty hrest
      simpa [pumpLines, hline, typedTexts, hne] using hcons

/-- The empty lines are apart from each other, and from the last empty read. -/
theorem emptyTimes_pumpLines (hreads : ∀ read ∈ reads, read.line ≠ some "")
    (hlast : ∀ t ∈ lastEmpty, t ≤ now) :
    (∀ t ∈ lastEmpty, ∀ x ∈ emptyTimes (pumpLines backoff lastEmpty now reads), t + repeatWindow ≤ x) ∧
      (emptyTimes (pumpLines backoff lastEmpty now reads)).Pairwise fun a b => a + repeatWindow ≤ b := by
  induction reads generalizing lastEmpty now with
  | nil => exact ⟨fun _ _ _ hx => (nomatch hx), .nil⟩
  | cons read reads ih =>
    have hrest : ∀ read' ∈ reads, read'.line ≠ some "" := fun read' hmem =>
      hreads read' (List.mem_cons_of_mem _ hmem)
    have hread := hreads read List.mem_cons_self
    rcases hline : read.line with _ | line
    · simp only [pumpLines, hline, Option.elim_none]
      split
      · -- dropped: what follows is apart from the end of the sleep, which is later still
        obtain ⟨hfrom, hapart⟩ := @ih (now + read.took + backoff + read.overslept)
          (some (now + read.took + backoff + read.overslept)) hrest fun t ht =>
            Nat.le_of_eq (Option.some.inj ht).symm
        refine ⟨fun t ht x hx => ?_, hapart⟩
        have hx := hfrom _ rfl x hx
        have ht := hlast t ht
        omega
      · rename_i hnew
        obtain ⟨hfrom, hapart⟩ := @ih (now + read.took) (some (now + read.took)) hrest fun t ht => Nat.le_of_eq (Option.some.inj ht).symm
        simp only [emptyTimes, List.filterMap_cons, if_true] at hfrom hapart ⊢
        refine ⟨fun t ht x hx => ?_, List.pairwise_cons.mpr ⟨fun x hx => hfrom _ rfl x hx, hapart⟩⟩
        have hgap : t + repeatWindow ≤ now + read.took := by
          have hlater := hlast t ht
          rw [Option.mem_def.mp ht] at hnew
          simp only [Option.any_some, decide_eq_true_eq] at hnew
          omega
        rcases List.mem_cons.mp hx with rfl | hx
        · exact hgap
        · have hx := hfrom _ rfl x hx
          omega
    · have hne : line ≠ "" := fun heq => hread (hline.trans (congrArg some heq))
      have hcons := @ih (now + read.took) lastEmpty hrest fun t ht =>
        Nat.le_trans (hlast t ht) (Nat.le_add_right _ _)
      simpa [pumpLines, hline, emptyTimes, hne] using hcons

/-- A read that gives no line takes its share of the time. -/
theorem pumpUntil_ge (t : Nat) (hlast : t ≤ now) :
    t + (reads.countP fun read => read.line.isNone) * min repeatWindow backoff ≤
      pumpUntil backoff (some t) now reads := by
  induction reads generalizing t now with
  | nil => simpa [pumpUntil] using hlast
  | cons read reads ih =>
    rcases hline : read.line with _ | line
    · simp only [pumpUntil, hline, Option.elim_none, List.countP_cons, Option.isNone_none, if_true,
        Nat.succ_mul, Option.any_some, decide_eq_true_eq]
      split
      · have hrest := ih (now + read.took + backoff + read.overslept) (Nat.le_refl _)
        have hmin := Nat.min_le_right repeatWindow backoff
        omega
      · have hrest := ih (now + read.took) (Nat.le_refl _)
        have hmin := Nat.min_le_left repeatWindow backoff
        omega
    · simp only [pumpUntil, hline, Option.elim_some, List.countP_cons, Option.isNone_some,
        Bool.false_eq_true, if_false, Nat.add_zero]
      exact ih t (Nat.le_trans hlast (Nat.le_add_right _ _))

/-- The first read without a line is sent; each that follows takes its share of the time. -/
theorem pumpUntil_fresh (backoff : Nat) :
    now + ((reads.countP fun read => read.line.isNone) - 1) * min repeatWindow backoff ≤
      pumpUntil backoff none now reads := by
  induction reads generalizing now with
  | nil => simp [pumpUntil]
  | cons read reads ih =>
    rcases hline : read.line with _ | line
    · simp only [pumpUntil, hline, Option.elim_none, Option.any_none, Bool.false_eq_true, if_false,
        List.countP_cons, Option.isNone_none, if_true, Nat.add_sub_cancel]
      have hrest : now + read.took + (reads.countP fun read => read.line.isNone) *
          min repeatWindow backoff ≤ pumpUntil backoff (some (now + read.took)) (now + read.took) reads :=
        pumpUntil_ge (now + read.took) (Nat.le_refl _)
      omega
    · simp only [pumpUntil, hline, Option.elim_some, List.countP_cons, Option.isNone_some,
        Bool.false_eq_true, if_false, Nat.add_zero]
      have hrest := @ih (now + read.took)
      omega

theorem repeatWindow_le : repeatWindow ≤ repeatBackoff := by decide +kernel

/-- Whatever is read, ends of input and unreadable lines between the lines: every line is sent, once and
in order; the empty lines sent between them are a window apart; and a terminal that gives no line cannot
make the reader spin. -/
theorem pump_sends_lines (hreads : ∀ read ∈ reads, read.line ≠ some "") :
    typedTexts (pumpLines repeatBackoff none now reads) = reads.filterMap StdinRead.line ∧
      (emptyTimes (pumpLines repeatBackoff none now reads)).Pairwise
        (fun a b => a + repeatWindow ≤ b) ∧
      now + ((reads.countP fun read => read.line.isNone) - 1) * repeatWindow ≤
        pumpUntil repeatBackoff none now reads := by
  have hlong : now + ((reads.countP fun read => read.line.isNone) - 1) * repeatWindow ≤
      pumpUntil repeatBackoff none now reads := by
    have hfresh : now + ((reads.countP fun read => read.line.isNone) - 1) *
        min repeatWindow repeatBackoff ≤ pumpUntil repeatBackoff none now reads :=
      pumpUntil_fresh repeatBackoff
    rwa [Nat.min_eq_left repeatWindow_le] at hfresh
  exact ⟨typedTexts_pumpLines hreads,
    (emptyTimes_pumpLines hreads fun _ ht => absurd ht (Option.not_mem_none _)).2, hlong⟩

/-- Two ends of input close together, a line, and an unreadable line. -/
def twoEnds : List StdinRead := [⟨0, none, 0⟩, ⟨1000, none, 5⟩, ⟨2000, some "y\n", 0⟩, ⟨seconds 1, none, 0⟩]

theorem twoEnds_sent :
    typedTexts (pumpLines repeatBackoff none 0 twoEnds) = twoEnds.filterMap StdinRead.line ∧
      (emptyTimes (pumpLines repeatBackoff none 0 twoEnds)).Pairwise
        (fun a b => a + repeatWindow ≤ b) ∧
      0 + ((twoEnds.countP fun read => read.line.isNone) - 1) * repeatWindow ≤
        pumpUntil repeatBackoff none 0 twoEnds :=
  pump_sends_lines (by decide)

end Pump

end BookAgent.AgentLogic
