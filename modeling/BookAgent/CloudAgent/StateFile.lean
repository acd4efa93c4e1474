import BookAgent.AgentLogic.SavedState
import BookAgent.CloudAgent.FillLoop
import BookAgent.CloudAgent.RfqV2
import BookAgent.Lib.CrashDisk
import BookAgent.Lib.Run
import BookAgent.Lib.Text

/-!
# The state file

`save_state`, `load_state_strict` and `delete_state` (`state.rs`) and the fill loop's
`save_fill_state_only`, on a disk that may lose what was not synced. The calls of a save are steps of
their own: each may fail, and the process or the host may stop between any two of them.
-/

namespace BookAgent.CloudAgent

open BookAgent.Lib BookAgent.AgentLogic

structure SavedTokenFlow where
  token : String
  netOutflowPerHour : ExactFloat

structure SavedState extends SavedAgentState where
  version : Nat
  savedAt : String
  partyId : String
  fillState : Option SavedFillState
  flowTracker : List SavedTokenFlow
  atomicTickets : List SavedTicket
  pendingV2Quotes : List SavedPendingV2

/-- `STATE_VERSION` -/
def stateVersion : Nat := 1

/-- `serde_json` at the saved state. -/
class StateJson where
  toStringPretty : SavedState → Except String String
  /-- The error says what is wrong, and where. -/
  fromStr : String → Except String SavedState

namespace SavedState

def new (savedAt partyId : String) (startTimeMs : Nat) : SavedState where
  version := stateVersion
  savedAt
  partyId
  startTimeMs
  completedProposals := []
  rejectedProposals := []
  orders := []
  settlementOrders := []
  acceptedRfqTrades := []
  quotedRfqTrades := []
  fillState := none
  flowTracker := []
  atomicTickets := []
  pendingV2Quotes := []

variable [StateJson]

/-- The JSON written for the state reads back as the state. A number that is not finite does not. -/
def ReadsBack (s : SavedState) : Prop :=
  ∃ json, StateJson.toStringPretty s = .ok json ∧ StateJson.fromStr json = .ok s

end SavedState

/-! ## The file names -/

/-- What is before the last dot of a file name, if anything is. -/
def fileStem (name : List Char) : List Char :=
  let before := ((name.reverse.dropWhile (· != '.')).drop 1).reverse
  if before = [] then name else before

/-- `path.with_extension("json.tmp")` -/
def jsonTmp (name : List Char) : List Char := fileStem name ++ ".json.tmp".toList

theorem jsonTmp_ne (name : List Char) : name ≠ jsonTmp name := by
  intro heq
  have stem : fileStem (fileStem name ++ ".json.tmp".toList) = fileStem name ++ ".json".toList := by
    simp [fileStem, List.dropWhile]
  have heq' : fileStem name = fileStem (fileStem name ++ ".json.tmp".toList) := congrArg fileStem heq
  have length := congrArg List.length (heq'.trans stem)
  simp at length

/-! ## Reading -/

/-- Why `read_to_string` fails. -/
inductive ReadError
  | notFound
  | other (e : String)

/-- The content as text. -/
def readToString : Option (List UInt8) → Except ReadError String
  | none => .error .notFound
  | some bytes =>
    match String.fromUTF8? ⟨bytes.toArray⟩ with
    | some text => .ok text
    | none => .error (.other "stream did not contain valid UTF-8")

theorem readToString_utf8 (text : String) : readToString (some (utf8 text)) = .ok text := by
  have bytes : (⟨(utf8 text).toArray⟩ : ByteArray) = text.toByteArray := rfl
  simp [readToString, bytes, String.fromUTF8?, String.fromUTF8, text.isValidUTF8]

section Load

variable [StateJson]

/-- Only a missing file is `none`. -/
def loadStateStrict (path : String) : Except ReadError String → Except String (Option SavedState)
  | .error .notFound => .ok none
  | .error (.other e) => .error ("cannot read state file " ++ path ++ ": " ++ e)
  | .ok data =>
    match StateJson.fromStr data with
    | .error what => .error ("state file " ++ path ++ " does not parse: " ++ what)
    | .ok state =>
      if state.version ≠ stateVersion then
        .error ("state file " ++ path ++ " has version " ++ toString state.version ++ ", expected " ++
          toString stateVersion)
      else .ok (some state)

end Load

/-! ## The fill loop's state -/

section Patch

variable [StateJson]

/-- What `save_fill_state_only` saves. -/
def patchFillState (path partyId savedAt : String) (fillState : SavedFillState)
    (answer : Except ReadError String) : Except String SavedState :=
  match loadStateStrict path answer with
  | .error e => .error e
  | .ok none => .ok { SavedState.new savedAt partyId 0 with fillState := some fillState }
  | .ok (some state) =>
    if state.partyId = partyId then .ok { state with fillState := some fillState, savedAt }
    else .error (path ++ " belongs to another party; move it first")

/-- The party's own state keeps everything else. -/
theorem patchFillState_own {path partyId savedAt : String} {fillState : SavedFillState}
    {answer : Except ReadError String} {state : SavedState}
    (hload : loadStateStrict path answer = .ok (some state)) (hown : state.partyId = partyId) :
    patchFillState path partyId savedAt fillState answer =
      .ok { state with fillState := some fillState, savedAt } := by
  unfold patchFillState
  rw [hload]
  exact if_pos hown

end Patch

/-! ## Saving, step by step -/

abbrev StateDisk := Disk (List Char) (List UInt8)

/-- The last call of a save that returned. -/
inductive SaveStep
  | begun
  | created (file : Nat)
  | written (file : Nat)
  | synced
  | renamed
  deriving DecidableEq

structure Saving where
  state : SavedState
  json : List UInt8
  step : SaveStep

/-- How a call ends; a directory may be one that cannot be synced. -/
inductive CallEnd
  | ok
  | unsupported
  | failed
  deriving DecidableEq

structure StateWorld where
  path : String
  disk : StateDisk
  saving : Option Saving
  /-- What the file was made to hold since the last save that is sure to be on the disk, with that
  save; the latest comes first. -/
  kept : List (Option SavedState)

inductive StateEvent
  | save (state : SavedState)
  | saveFill (partyId savedAt : String) (fillState : SavedFillState)
  /-- Part of the text reaches the file. -/
  | writePart (length : Nat)
  | next (result : CallEnd)
  | delete (ok : Bool)
  /-- The process ends. -/
  | killed
  /-- The host crashes; it finds one of the directories, and anything where nothing was synced. -/
  | crash (left : Nat) (garbage : Nat → List UInt8)

namespace StateWorld

section Calls

variable (w : StateWorld)

def name : List Char := w.path.toList

def tmp : List Char := jsonTmp w.name

theorem name_ne_tmp : w.name ≠ w.tmp := jsonTmp_ne w.name

/-- The next call of the save that is under way. A directory that cannot be synced is no error. -/
def next (s : Saving) : CallEnd → StateWorld
  | .failed => { w with saving := none }
  | .unsupported => { w with saving := none }
  | .ok =>
    match s.step with
    | .begun =>
      let (file, disk) := w.disk.create w.tmp []
      { w with disk, saving := some { s with step := .created file } }
    | .created file =>
      { w with disk := w.disk.write file s.json, saving := some { s with step := .written file } }
    | .written file =>
      { w with disk := w.disk.syncFile file, saving := some { s with step := .synced } }
    | .synced =>
      { w with
        disk := w.disk.rename w.tmp w.name
        saving := some { s with step := .renamed }
        kept := some s.state :: w.kept }
    | .renamed => { w with disk := w.disk.syncDir, saving := none, kept := [some s.state] }

end Calls

variable [StateJson] (w : StateWorld)

/-- A strict load of what the file holds now. -/
def load : Except String (Option SavedState) :=
  loadStateStrict w.path (readToString (w.disk.read w.name))

/-- A strict load after a crash of the host now. -/
def loadAfterCrash (left : Nat) (garbage : Nat → List UInt8) : Except String (Option SavedState) :=
  loadStateStrict w.path (readToString ((w.disk.crash left garbage).read w.name))

def beginSave (state : SavedState) : StateWorld :=
  match StateJson.toStringPretty state with
  | .error _ => w
  | .ok json => { w with saving := some ⟨state, utf8 json, .begun⟩ }

def beginSaveFill (partyId savedAt : String) (fillState : SavedFillState) : StateWorld :=
  match patchFillState w.path partyId savedAt fillState (readToString (w.disk.read w.name)) with
  | .error _ => w
  | .ok state => w.beginSave state

def apply : StateEvent → StateWorld
  | .save state => w.beginSave state
  | .saveFill partyId savedAt fillState => w.beginSaveFill partyId savedAt fillState
  | .writePart length =>
    match w.saving with
    | some ⟨_, json, .created file⟩ => { w with disk := w.disk.write file (json.take length) }
    | _ => w
  | .next result =>
    match w.saving with
    | some s => w.next s result
    | none => w
  | .delete ok =>
    if ok then { w with disk := w.disk.remove w.name, kept := none :: w.kept } else w
  | .killed => { w with saving := none }
  | .crash left garbage => { w with disk := w.disk.crash left garbage, saving := none }

/-- One save or deletion at a time, of a state that reads back. -/
def Allowed : StateEvent → Prop
  | .save state => w.saving = none ∧ state.version = stateVersion ∧ state.ReadsBack
  | .saveFill partyId savedAt fillState =>
    w.saving = none ∧ ∀ state, patchFillState w.path partyId savedAt fillState
      (readToString (w.disk.read w.name)) = .ok state → state.ReadsBack
  | .delete _ => w.saving = none
  | _ => True

/-! ## What a crash leaves -/

/-- The content loads as a state that was kept. -/
def Loads (path : String) (kept : List (Option SavedState)) (content : Option (List UInt8)) : Prop :=
  ∃ s ∈ kept, loadStateStrict path (readToString content) = .ok s

theorem Loads.mono {path : String} {kept kept' : List (Option SavedState)}
    {content : Option (List UInt8)} (h : Loads path kept content) (hsub : kept ⊆ kept') :
    Loads path kept' content := by
  obtain ⟨s, hs, hload⟩ := h
  exact ⟨s, hsub hs, hload⟩

/-- How far the save under way has come. -/
structure Progress (s : Saving) : Prop where
  reads : loadStateStrict w.path (readToString (some s.json)) = .ok (some s.state)
  created : ∀ file, s.step = .created file → w.disk.names w.tmp = some file
  written : ∀ file, s.step = .written file →
    w.disk.names w.tmp = some file ∧ w.disk.data file = s.json
  synced : s.step = .synced → ∃ file, w.disk.names w.tmp = some file ∧ w.disk.data file = s.json ∧
    w.disk.synced file = true
  renamed : s.step = .renamed → w.disk.read w.name = some s.json

structure Sound : Prop where
  disk : w.disk.Kept w.name w.tmp (Loads w.path w.kept)
  saving : ∀ s, w.saving = some s → w.Progress s

variable {w}

theorem reads_json {path json : String} {state : SavedState} (hversion : state.version = stateVersion)
    (hjson : StateJson.fromStr json = .ok state) :
    loadStateStrict path (readToString (some (utf8 json))) = .ok (some state) := by
  simp [readToString_utf8, loadStateStrict, hjson, hversion]

/-- A state that is loaded or patched has the version that loads. -/
theorem version_of_patch {path partyId savedAt : String} {fillState : SavedFillState}
    {answer : Except ReadError String} {state : SavedState}
    (h : patchFillState path partyId savedAt fillState answer = .ok state) :
    state.version = stateVersion := by
  unfold patchFillState at h
  split at h
  · cases h
  · obtain rfl := Except.ok.inj h
    rfl
  · rename_i loaded hload
    split at h
    · obtain rfl := Except.ok.inj h
      unfold loadStateStrict at hload
      split at hload
      · cases hload
      · cases hload
      · split at hload
        · cases hload
        · split at hload
          · cases hload
          · rename_i hversion
            obtain rfl := Option.some.inj (Except.ok.inj hload)
            exact not_not.mp hversion
    · cases h

namespace Sound

theorem ended (h : w.Sound) : ({ w with saving := none } : StateWorld).Sound :=
  ⟨h.disk, fun _ hs => nomatch hs⟩

theorem beginSave (h : w.Sound) {state : SavedState} (hversion : state.version = stateVersion)
    (hreads : state.ReadsBack) : (w.beginSave state).Sound := by
  obtain ⟨json, hwrite, hread⟩ := hreads
  simp only [StateWorld.beginSave, hwrite]
  refine ⟨h.disk, fun s hs => ?_⟩
  obtain rfl := Option.some.inj hs
  exact ⟨reads_json hversion hread, by simp, by simp, by simp, by simp⟩

theorem beginSaveFill (h : w.Sound) {partyId savedAt : String} {fillState : SavedFillState}
    (hreads : ∀ state, patchFillState w.path partyId savedAt fillState
      (readToString (w.disk.read w.name)) = .ok state → state.ReadsBack) :
    (w.beginSaveFill partyId savedAt fillState).Sound := by
  unfold StateWorld.beginSaveFill
  split
  · exact h
  · rename_i state hstate
    exact h.beginSave (version_of_patch hstate) (hreads state hstate)

/-- One call of the save. -/
theorem next (h : w.Sound) {s : Saving} (hs : w.saving = some s) (result : CallEnd) :
    (w.next s result).Sound := by
  have progress := h.saving s hs
  cases result with
  | failed => exact h.ended
  | unsupported => exact h.ended
  | ok =>
    unfold StateWorld.next
    dsimp only
    split
    · obtain ⟨kept, named⟩ := h.disk.create w.name_ne_tmp []
      refine ⟨kept, fun s' hs' => ?_⟩
      obtain rfl := Option.some.inj hs'
      exact ⟨progress.reads, fun file hfile => SaveStep.created.inj hfile ▸ named, by simp, by simp,
        by simp⟩
    · rename_i file hstep
      have named := progress.created file hstep
      refine ⟨h.disk.write named s.json, fun s' hs' => ?_⟩
      obtain rfl := Option.some.inj hs'
      refine ⟨progress.reads, by simp, fun file' hfile => ?_, by simp, by simp⟩
      obtain rfl := SaveStep.written.inj hfile
      exact ⟨named, Function.update_self ..⟩
    · rename_i file hstep
      obtain ⟨named, content⟩ := progress.written file hstep
      refine ⟨h.disk.syncFile file, fun s' hs' => ?_⟩
      obtain rfl := Option.some.inj hs'
      exact ⟨progress.reads, by simp, by simp,
        fun _ => ⟨file, named, content, Function.update_self ..⟩, by simp⟩
    · rename_i hstep
      obtain ⟨file, named, content, synced⟩ := progress.synced hstep
      refine ⟨h.disk.rename w.name_ne_tmp named synced (fun r hr => hr.mono ?_) ?_, fun s' hs' => ?_⟩
      · exact List.subset_cons_self ..
      · exact ⟨some s.state, List.mem_cons_self, content ▸ progress.reads⟩
      · obtain rfl := Option.some.inj hs'
        refine ⟨progress.reads, by simp, by simp, by simp, fun _ => ?_⟩
        have hname : (w.disk.rename w.tmp w.name).names w.name = some file := by
          show Function.update (Function.update w.disk.names w.name _) w.tmp none w.name = _
          rw [Function.update_of_ne w.name_ne_tmp, Function.update_self, named]
        show Option.map _ ((w.disk.rename w.tmp w.name).names w.name) = _
        rw [hname]
        exact congrArg some content
    · rename_i hstep
      refine ⟨h.disk.syncDir ?_, fun _ hs' => nomatch hs'⟩
      exact ⟨some s.state, List.mem_singleton_self _, progress.renamed hstep ▸ progress.reads⟩

theorem writePart (h : w.Sound) (length : Nat) : (w.apply (.writePart length)).Sound := by
  simp only [apply]
  split
  · rename_i state json file hs
    have progress := h.saving _ hs
    refine ⟨h.disk.write (progress.created file rfl) _, fun s' hs' => ?_⟩
    obtain rfl := Option.some.inj (hs.symm.trans hs')
    exact ⟨progress.reads, fun _ => progress.created _, by simp, by simp, by simp⟩
  · exact h

/-- One event. -/
theorem apply (h : w.Sound) {e : StateEvent} (hallowed : w.Allowed e) : (w.apply e).Sound := by
  cases e with
  | save state => exact h.beginSave hallowed.2.1 hallowed.2.2
  | saveFill partyId savedAt fillState => exact h.beginSaveFill hallowed.2
  | writePart length => exact h.writePart length
  | next result =>
    simp only [StateWorld.apply]
    split
    · rename_i s hs
      exact h.next hs result
    · exact h
  | delete ok =>
    simp only [StateWorld.apply]
    split
    · refine ⟨h.disk.remove w.name_ne_tmp (fun r hr => hr.mono (List.subset_cons_self ..)) ?_,
        fun s hs => ?_⟩
      · exact ⟨none, List.mem_cons_self, rfl⟩
      · exact nomatch (show w.saving = none from hallowed).symm.trans hs
    · exact h
  | killed => exact h.ended
  | crash left garbage => exact ⟨h.disk.crash left garbage, fun _ hs => nomatch hs⟩

end Sound

/-- A process that finds `r` in the file. -/
def opened (path : String) (disk : StateDisk) (r : Option SavedState) : StateWorld :=
  ⟨path, disk, none, [r]⟩

theorem sound_opened {path : String} {disk : StateDisk} {r : Option SavedState} (hdisk : disk.Settled)
    (hload : (opened path disk r).load = .ok r) : (opened path disk r).Sound :=
  ⟨hdisk.kept (jsonTmp_ne _) ⟨r, List.mem_singleton_self r, hload⟩, fun _ hs => nomatch hs⟩

theorem Sound.of_reachable {start : StateWorld} (h : start.Sound)
    (run : Reachable Allowed StateWorld.apply start w) : w.Sound :=
  run.invariant Sound h fun _ _ hinv hallowed => hinv.apply hallowed

theorem Sound.load (h : w.Sound) : ∃ s ∈ w.kept, w.load = .ok s := h.disk.read

theorem Sound.loadAfterCrash (h : w.Sound) (left : Nat) (garbage : Nat → List UInt8) :
    ∃ s ∈ w.kept, w.loadAfterCrash left garbage = .ok s := (h.disk.crash left garbage).read

/-- No state is saved and none is deleted; the process may still end and the host may crash. -/
def Quiet : StateEvent → Prop
  | .next _ => True
  | .writePart _ => True
  | .killed => True
  | .crash .. => True
  | _ => False

theorem kept_of_quiet {start : StateWorld} {kept : List (Option SavedState)}
    (hsaving : start.saving = none) (hkept : start.kept = kept)
    (run : Reachable (fun _ => Quiet) apply start w) : w.saving = none ∧ w.kept = kept := by
  refine run.invariant (fun w => w.saving = none ∧ w.kept = kept) ⟨hsaving, hkept⟩ ?_
  rintro w e ⟨hsaving, hkept⟩ hquiet
  cases e with
  | next result => simpa [apply, hsaving] using hkept
  | writePart length => simpa [apply, hsaving] using hkept
  | killed => exact ⟨rfl, hkept⟩
  | crash left garbage => exact ⟨rfl, hkept⟩
  | save state => exact hquiet.elim
  | saveFill partyId savedAt fillState => exact hquiet.elim
  | delete ok => exact hquiet.elim

/-- Whichever calls fail and wherever the process ends or the host crashes: the file loads, as a
state whose save came as far as the rename since the last save that is sure to be on the disk, or as
that one; and a save that returned with its directory synced is what loads until the next. -/
theorem load_after_crash {path : String} {disk : StateDisk} {r : Option SavedState}
    (hdisk : disk.Settled) (hload : (opened path disk r).load = .ok r)
    (run : Reachable Allowed apply (opened path disk r) w) :
    (∀ left garbage, ∃ s ∈ w.kept, w.loadAfterCrash left garbage = .ok s) ∧
      ∀ s, w.saving = some s → s.step = .renamed →
        ∀ w', Reachable (fun _ => Quiet) apply (w.apply (.next .ok)) w' →
          w'.load = .ok (some s.state) ∧
            ∀ left garbage, w'.loadAfterCrash left garbage = .ok (some s.state) := by
  have sound : w.Sound := (sound_opened hdisk hload).of_reachable run
  refine ⟨sound.loadAfterCrash, fun s hs hstep w' quiet => ?_⟩
  have synced : w.apply (.next .ok) =
      { w with disk := w.disk.syncDir, saving := none, kept := [some s.state] } := by
    simp [apply, hs, next, hstep]
  have hkept : w'.kept = [some s.state] := (kept_of_quiet (by rw [synced]) (by rw [synced]) quiet).2
  have sound' : w'.Sound := by
    refine quiet.invariant Sound (sound.apply (e := .next .ok) trivial) fun w e hinv hquiet => ?_
    refine hinv.apply ?_
    cases e with
    | save | saveFill | delete => exact hquiet.elim
    | _ => trivial
  refine ⟨?_, fun left garbage => ?_⟩
  · obtain ⟨s', hs', hread⟩ := sound'.load
    rw [hkept] at hs'
    exact List.mem_singleton.mp hs' ▸ hread
  · obtain ⟨s', hs', hread⟩ := sound'.loadAfterCrash left garbage
    rw [hkept] at hs'
    exact List.mem_singleton.mp hs' ▸ hread

/-! ## The fill loop's saves -/

/-- The second is the first with a fill state of the party's, or a new state of the party's. -/
inductive OnlyFill (partyId : String) : Option SavedState → Option SavedState → Prop
  | same (r : Option SavedState) : OnlyFill partyId r r
  | new (savedAt : String) (fillState : SavedFillState) :
    OnlyFill partyId none (some { SavedState.new savedAt partyId 0 with fillState := some fillState })
  | patched (s : SavedState) (savedAt : String) (fillState : SavedFillState) :
    s.partyId = partyId →
    OnlyFill partyId (some s) (some { s with savedAt, fillState := some fillState })

theorem OnlyFill.patch {path partyId savedAt : String} {fillState : SavedFillState}
    {answer : Except ReadError String} {r r' : Option SavedState} {state : SavedState}
    (h : OnlyFill partyId r r') (hload : loadStateStrict path answer = .ok r')
    (hpatch : patchFillState path partyId savedAt fillState answer = .ok state) :
    OnlyFill partyId r (some state) := by
  cases h with
  | same =>
    unfold patchFillState at hpatch
    rw [hload] at hpatch
    cases r with
    | none =>
      obtain rfl := Except.ok.inj hpatch
      exact .new savedAt fillState
    | some s =>
      dsimp only at hpatch
      split at hpatch
      · rename_i own
        obtain rfl := Except.ok.inj hpatch
        exact .patched s savedAt fillState own
      · cases hpatch
  | new savedAt' fillState' =>
    obtain rfl := Except.ok.inj ((patchFillState_own hload rfl).symm.trans hpatch)
    exact .new savedAt fillState
  | patched s savedAt' fillState' own =>
    obtain rfl := Except.ok.inj ((patchFillState_own hload own).symm.trans hpatch)
    exact .patched s savedAt fillState own

/-- Only the party's fill loop saves. -/
def FillOnly (partyId : String) (w : StateWorld) (e : StateEvent) : Prop :=
  w.Allowed e ∧ match e with
    | .save _ | .delete _ => False
    | .saveFill party _ _ => party = partyId
    | _ => True

/-- What is kept, and what is being saved, differs from one of `olds` in the fill state only. -/
structure KeepsRest (partyId : String) (olds : List (Option SavedState)) (w : StateWorld) :
    Prop where
  kept : ∀ r ∈ w.kept, ∃ old ∈ olds, OnlyFill partyId old r
  saving : ∀ s, w.saving = some s → ∃ old ∈ olds, OnlyFill partyId old (some s.state)

theorem KeepsRest.apply {partyId : String} {olds : List (Option SavedState)}
    (h : KeepsRest partyId olds w) (sound : w.Sound) {e : StateEvent}
    (hfill : FillOnly partyId w e) : KeepsRest partyId olds (w.apply e) := by
  cases e with
  | save state => exact hfill.2.elim
  | delete ok => exact hfill.2.elim
  | killed => exact ⟨h.kept, fun _ hs => nomatch hs⟩
  | crash left garbage => exact ⟨h.kept, fun _ hs => nomatch hs⟩
  | writePart length =>
    simp only [StateWorld.apply]
    split
    · exact ⟨h.kept, h.saving⟩
    · exact h
  | saveFill party savedAt fillState =>
    obtain rfl : party = partyId := hfill.2
    simp only [StateWorld.apply, StateWorld.beginSaveFill]
    split
    · exact h
    · rename_i state hpatch
      unfold StateWorld.beginSave
      split
      · exact h
      · refine ⟨h.kept, fun s hs => ?_⟩
        obtain rfl := Option.some.inj hs
        obtain ⟨r, hr, hload⟩ := sound.load
        obtain ⟨old, hold, honly⟩ := h.kept r hr
        exact ⟨old, hold, honly.patch hload hpatch⟩
  | next result =>
    simp only [StateWorld.apply]
    split
    · rename_i s hs
      have saved := h.saving s hs
      unfold StateWorld.next
      split
      · exact ⟨h.kept, fun _ hs' => nomatch hs'⟩
      · exact ⟨h.kept, fun _ hs' => nomatch hs'⟩
      · have same (step : SaveStep) (s' : Saving) (hs' : some { s with step } = some s') :
            ∃ old ∈ olds, OnlyFill partyId old (some s'.state) := by
          obtain rfl := Option.some.inj hs'
          exact saved
        split
        · exact ⟨h.kept, same _⟩
        · exact ⟨h.kept, same _⟩
        · exact ⟨h.kept, same _⟩
        · refine ⟨fun r hr => ?_, same _⟩
          rcases List.mem_cons.mp hr with rfl | hr
          · exact saved
          · exact h.kept r hr
        · refine ⟨fun r hr => ?_, fun _ hs' => nomatch hs'⟩
          obtain rfl := List.mem_singleton.mp hr
          exact saved
    · exact h

/-- However often the party's fill loop saves its progress, and wherever that is cut short: what loads
afterwards, also after a crash, is a state that was there before, with another fill state at most. -/
theorem fill_saves_keep_rest {partyId path : String} {disk : StateDisk} {r : Option SavedState}
    (hdisk : disk.Settled) (hload : (opened path disk r).load = .ok r) {w₀ : StateWorld}
    (run : Reachable Allowed apply (opened path disk r) w₀) (idle : w₀.saving = none)
    (fills : Reachable (FillOnly partyId) apply w₀ w) (left : Nat) (garbage : Nat → List UInt8) :
    (∃ r', w.load = .ok r' ∧ ∃ old ∈ w₀.kept, OnlyFill partyId old r') ∧
      ∃ r', w.loadAfterCrash left garbage = .ok r' ∧
        ∃ old ∈ w₀.kept, OnlyFill partyId old r' := by
  have sound₀ : w₀.Sound := (sound_opened hdisk hload).of_reachable run
  have both : w.Sound ∧ KeepsRest partyId w₀.kept w := by
    refine fills.invariant (fun w => w.Sound ∧ KeepsRest partyId w₀.kept w) ⟨sound₀, ?_⟩ ?_
    · exact ⟨fun r hr => ⟨r, hr, .same r⟩, fun s hs => nomatch idle.symm.trans hs⟩
    · exact fun w e hinv hfill => ⟨hinv.1.apply hfill.1, hinv.2.apply hinv.1 hfill⟩
  obtain ⟨sound, keeps⟩ := both
  refine ⟨?_, ?_⟩
  · obtain ⟨r', hr', hread⟩ := sound.load
    exact ⟨r', hread, keeps.kept r' hr'⟩
  · obtain ⟨r', hr', hread⟩ := sound.loadAfterCrash left garbage
    exact ⟨r', hread, keeps.kept r' hr'⟩

end StateWorld

section Example

/-- What `serde_json` writes for a new state with the given fill state. -/
def newStateJson (fillState : String) : String :=
  "\x7b\n  \"version\": 1,\n  \"saved_at\": \"2026-01-01T00:00:00+00:00\",\n" ++
  "  \"party_id\": \"party::1\",\n  \"start_time_ms\": 0,\n  \"completed_proposals\": [],\n" ++
  "  \"rejected_proposals\": [],\n  \"orders\": [],\n  \"settlement_orders\": [],\n" ++
  "  \"accepted_rfq_trades\": [],\n  \"quoted_rfq_trades\": [],\n  \"fill_state\": " ++ fillState ++
  ",\n  \"flow_tracker\": [],\n  \"atomic_tickets\": [],\n  \"pending_v2_quotes\": []\n\x7d"

def fourOfTenJson : String :=
  "\x7b\n    \"direction\": \"buy\",\n    \"market_id\": \"CC-USDC\",\n    \"total_amount\": 10.0,\n" ++
  "    \"filled_total\": 4.0,\n    \"remaining\": 6.0,\n    \"round\": 1,\n" ++
  "    \"unresolved\": null\n  \x7d"

/-- 4 of 10 are bought. -/
def fourOfTen : SavedFillState :=
  ⟨"buy", "CC-USDC", .finite 10, .finite 4, .finite 6, 1, none⟩

def newState : SavedState := .new "2026-01-01T00:00:00+00:00" "party::1" 0

/-- The text of the two states, and those back. -/
abbrev newStateCrate : StateJson where
  toStringPretty s := .ok (newStateJson (if s.fillState.isSome then fourOfTenJson else "null"))
  fromStr text :=
    if text = newStateJson fourOfTenJson then .ok { newState with fillState := some fourOfTen }
    else if text = newStateJson "null" then .ok newState
    else .error "a syntax error at line 1 column 1"

local instance stateJson : StateJson := newStateCrate

theorem newState_readsBack : newState.ReadsBack :=
  ⟨newStateJson "null", rfl,
    (if_neg (by decide +kernel : newStateJson "null" ≠ newStateJson fourOfTenJson)).trans (if_pos rfl)⟩

theorem fourOfTen_readsBack : SavedState.ReadsBack { newState with fillState := some fourOfTen } :=
  ⟨newStateJson fourOfTenJson, rfl, if_pos rfl⟩

namespace StateWorld

def noFile : StateWorld := opened "agent-state.json" (.blank []) none

/-- After the first calls of the first save. -/
def savingNew (calls : Nat) : StateWorld :=
  (List.replicate calls (StateEvent.next .ok)).foldl apply (noFile.apply (.save newState))

theorem reachable_savingNew : Reachable Allowed apply noFile (savingNew 4) := by
  have begun : Reachable Allowed apply noFile (noFile.apply (.save newState)) :=
    .step .start ⟨rfl, rfl, newState_readsBack⟩
  exact begun.foldl ⟨trivial, trivial, trivial, trivial, trivial⟩

/-- The first save returned; whatever a crash loses then, the state it saved loads. -/
theorem load_after_crash_new : noFile.load = .ok none ∧ ∀ left garbage,
    ((savingNew 4).apply (.next .ok)).loadAfterCrash left garbage = .ok (some newState) :=
  ⟨rfl, ((load_after_crash (Disk.settled_blank []) rfl reachable_savingNew).2
    _ rfl rfl _ .start).2⟩

/-- The fill loop writes its progress into the saved file, and the host crashes before the rename is
on the disk. -/
def savingFill : StateWorld :=
  (List.replicate 4 (StateEvent.next .ok)).foldl apply
    ((savingNew 5).apply (.saveFill "party::1" "2026-01-01T00:00:00+00:00" fourOfTen))

theorem savingFill_keeps_rest : (savingNew 5).kept = [some newState] ∧ ∀ left garbage,
    (∃ r', savingFill.load = .ok r' ∧ ∃ old ∈ (savingNew 5).kept, OnlyFill "party::1" old r') ∧
      ∃ r', savingFill.loadAfterCrash left garbage = .ok r' ∧
        ∃ old ∈ (savingNew 5).kept, OnlyFill "party::1" old r' := by
  have saved : Reachable Allowed apply noFile (savingNew 5) :=
    reachable_savingNew.step (e := StateEvent.next .ok) True.intro
  have loads : (savingNew 5).load = .ok (some newState) := by
    obtain ⟨r, hr, hload⟩ := ((sound_opened (Disk.settled_blank []) rfl).of_reachable saved).load
    exact List.mem_singleton.mp hr ▸ hload
  have begun : Reachable (FillOnly "party::1") apply (savingNew 5) ((savingNew 5).apply
      (.saveFill "party::1" "2026-01-01T00:00:00+00:00" fourOfTen)) := by
    refine .step .start ⟨⟨rfl, fun state hpatch => ?_⟩, rfl⟩
    exact Except.ok.inj ((patchFillState_own loads rfl).symm.trans hpatch) ▸ fourOfTen_readsBack
  have run : Reachable (FillOnly "party::1") apply (savingNew 5) savingFill := begun.foldl
    ⟨⟨trivial, trivial⟩, ⟨trivial, trivial⟩, ⟨trivial, trivial⟩, ⟨trivial, trivial⟩, trivial⟩
  exact ⟨rfl, fill_saves_keep_rest (Disk.settled_blank []) rfl saved rfl run⟩

end StateWorld

end Example

end BookAgent.CloudAgent
