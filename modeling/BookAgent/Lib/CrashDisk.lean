import Mathlib.Logic.Function.Basic
import Mathlib.Data.List.Basic

/-!
# Files across crashes

Files under names, and what a crash of the host leaves of them. A file that was not synced after
its last write may hold anything then. The changes of a directory reach the disk in order, so it is
left as it was after one of the changes since its last sync.
-/

namespace BookAgent.Lib

/-- The names of a directory, each with the number of its file. -/
abbrev Directory (κ : Type) := κ → Option Nat

structure Disk (κ β : Type) where
  names : Directory κ
  /-- The earlier directories that a crash may leave as well. -/
  behind : List (Directory κ)
  data : Nat → β
  /-- The file is on the disk as it was last written. -/
  synced : Nat → Bool
  /-- The number of the next file. -/
  next : Nat

namespace Disk

variable {κ β : Type}

def read (d : Disk κ β) (k : κ) : Option β := (d.names k).map d.data

def setNames (d : Disk κ β) (names : Directory κ) : Disk κ β :=
  { d with names, behind := d.names :: d.behind }

def write (d : Disk κ β) (file : Nat) (b : β) : Disk κ β :=
  { d with data := Function.update d.data file b, synced := Function.update d.synced file false }

def syncFile (d : Disk κ β) (file : Nat) : Disk κ β :=
  { d with synced := Function.update d.synced file true }

def syncDir (d : Disk κ β) : Disk κ β := { d with behind := [] }

/-- What a crash leaves: one of the directories, and anything in the files that were not synced. -/
def crash (d : Disk κ β) (left : Nat) (garbage : Nat → β) : Disk κ β where
  names := (d.names :: d.behind).getD left d.names
  behind := []
  data file := if d.synced file then d.data file else garbage file
  synced _ := true
  next := d.next

section

variable [DecidableEq κ]

/-- The file of the name, emptied, or a new one. -/
def create (d : Disk κ β) (k : κ) (empty : β) : Nat × Disk κ β :=
  match d.names k with
  | some file => (file, d.write file empty)
  | none =>
    (d.next, { (d.setNames (Function.update d.names k (some d.next))).write d.next empty with
      next := d.next + 1 })

def rename (d : Disk κ β) (old new : κ) : Disk κ β :=
  d.setNames (Function.update (Function.update d.names new (d.names old)) old none)

def remove (d : Disk κ β) (k : κ) : Disk κ β := d.setNames (Function.update d.names k none)

end

/-- Whatever a crash leaves, `path` reads as `P` admits, and no write to the file now under `aside`
changes that. -/
structure Kept (d : Disk κ β) (path aside : κ) (P : Option β → Prop) : Prop where
  synced : ∀ names ∈ d.names :: d.behind, ∀ file, names path = some file → d.synced file = true
  reads : ∀ names ∈ d.names :: d.behind, P ((names path).map d.data)
  current : ∀ names ∈ d.names :: d.behind, ∀ file, names path = some file → d.names aside ≠ some file
  apart : ∀ names ∈ d.names :: d.behind, ∀ file, names path = some file → names aside ≠ some file
  below : ∀ names ∈ d.names :: d.behind, ∀ k file, names k = some file → file < d.next

/-- A disk after a restart: it is all synced, and no file has two names. -/
structure Settled (d : Disk κ β) : Prop where
  behind : d.behind = []
  synced : ∀ file, d.synced file = true
  inj : ∀ k k' file, d.names k = some file → d.names k' = some file → k = k'
  below : ∀ k file, d.names k = some file → file < d.next

/-- No names at all. -/
def blank (empty : β) : Disk κ β := ⟨fun _ => none, [], fun _ => empty, fun _ => true, 0⟩

theorem settled_blank (empty : β) : (blank empty : Disk κ β).Settled :=
  ⟨rfl, fun _ => rfl, fun _ _ _ h => (nomatch h), fun _ _ h => nomatch h⟩

theorem Settled.kept {d : Disk κ β} (h : d.Settled) {path aside : κ} (hne : path ≠ aside)
    {P : Option β → Prop} (hP : P (d.read path)) : d.Kept path aside P := by
  have only (names : Directory κ) (hnames : names ∈ d.names :: d.behind) : names = d.names := by
    rw [h.behind] at hnames
    exact List.mem_singleton.mp hnames
  refine ⟨fun _ _ file _ => h.synced file, fun names hnames => ?_, fun names hnames => ?_,
    fun names hnames => ?_, fun names hnames => ?_⟩ <;> obtain rfl := only names hnames
  · exact hP
  · exact fun file hi hi' => hne (h.inj path aside file hi hi')
  · exact fun file hi hi' => hne (h.inj path aside file hi hi')
  · exact h.below

namespace Kept

variable {d : Disk κ β} {path aside : κ} {P Q : Option β → Prop} {file : Nat}

theorem read (h : d.Kept path aside P) : P (d.read path) := h.reads d.names List.mem_cons_self

theorem mono (h : d.Kept path aside P) (hPQ : ∀ r, P r → Q r) : d.Kept path aside Q where
  synced := h.synced
  reads names hnames := hPQ _ (h.reads names hnames)
  current := h.current
  apart := h.apart
  below := h.below

/-- A write to a file that is not the one of `path` in any of the directories. -/
theorem write_other (h : d.Kept path aside P)
    (hother : ∀ names ∈ d.names :: d.behind, names path ≠ some file) (b : β) :
    (d.write file b).Kept path aside P where
  synced names hnames i hi := by
    have hne : i ≠ file := fun heq => hother names hnames (heq ▸ hi)
    have same : (d.write file b).synced i = d.synced i := Function.update_of_ne hne ..
    exact same.trans (h.synced names hnames i hi)
  reads names hnames := by
    have same : (names path).map (Function.update d.data file b) = (names path).map d.data := by
      cases hi : names path with
      | none => rfl
      | some i =>
        have hne : i ≠ file := fun heq => hother names hnames (heq ▸ hi)
        simp [Function.update_of_ne hne]
    exact same ▸ h.reads names hnames
  current := h.current
  apart := h.apart
  below := h.below

theorem write (h : d.Kept path aside P) (haside : d.names aside = some file) (b : β) :
    (d.write file b).Kept path aside P :=
  h.write_other (fun names hnames hi => h.current names hnames file hi haside) b

theorem syncFile (h : d.Kept path aside P) (file : Nat) : (d.syncFile file).Kept path aside P where
  synced names hnames i hi := by
    by_cases heq : i = file
    · exact heq ▸ Function.update_self ..
    · have same : (d.syncFile file).synced i = d.synced i := Function.update_of_ne heq ..
      exact same.trans (h.synced names hnames i hi)
  reads := h.reads
  current := h.current
  apart := h.apart
  below := h.below

/-- A change of the directory: what it has under `path`, and what it has under `aside`. -/
theorem setNames (h : d.Kept path aside P) {names' : Directory κ} (hPQ : ∀ r, P r → Q r)
    (hsynced : ∀ i, names' path = some i → d.synced i = true)
    (hreads : Q ((names' path).map d.data))
    (haside : ∀ i, names' aside = some i → names' path ≠ some i ∧
      ∀ names ∈ d.names :: d.behind, names path ≠ some i)
    (hbelow : ∀ k i, names' k = some i → i < d.next) :
    (d.setNames names').Kept path aside Q where
  synced names hnames := by
    rcases List.mem_cons.mp hnames with rfl | hold
    · exact hsynced
    · exact h.synced names hold
  reads names hnames := by
    rcases List.mem_cons.mp hnames with rfl | hold
    · exact hreads
    · exact hPQ _ (h.reads names hold)
  current names hnames i hi hi' := by
    rcases List.mem_cons.mp hnames with rfl | hold
    · exact (haside i hi').1 hi
    · exact (haside i hi').2 names hold hi
  apart names hnames i hi hi' := by
    rcases List.mem_cons.mp hnames with rfl | hold
    · exact (haside i hi').1 hi
    · exact h.apart names hold i hi hi'
  below names hnames := by
    rcases List.mem_cons.mp hnames with rfl | hold
    · exact hbelow
    · exact h.below names hold

/-- Once the directory is synced, only what it has now is left. -/
theorem syncDir (h : d.Kept path aside P) (hQ : Q (d.read path)) : d.syncDir.Kept path aside Q where
  synced names hnames := by
    obtain rfl := List.mem_singleton.mp hnames
    exact h.synced _ List.mem_cons_self
  reads names hnames := by
    obtain rfl := List.mem_singleton.mp hnames
    exact hQ
  current names hnames := by
    obtain rfl := List.mem_singleton.mp hnames
    exact h.current _ List.mem_cons_self
  apart names hnames := by
    obtain rfl := List.mem_singleton.mp hnames
    exact h.apart _ List.mem_cons_self
  below names hnames := by
    obtain rfl := List.mem_singleton.mp hnames
    exact h.below _ List.mem_cons_self

theorem crash (h : d.Kept path aside P) (left : Nat) (garbage : Nat → β) :
    (d.crash left garbage).Kept path aside P := by
  have left_mem : (d.crash left garbage).names ∈ d.names :: d.behind := by
    rw [Disk.crash, List.getD_eq_getElem?_getD]
    cases hleft : (d.names :: d.behind)[left]? with
    | none => exact List.mem_cons_self
    | some names => exact List.mem_of_getElem? hleft
  refine ⟨fun _ _ _ _ => rfl, fun names hnames => ?_, fun names hnames => ?_, fun names hnames => ?_,
    fun names hnames => ?_⟩ <;> obtain rfl := List.mem_singleton.mp hnames
  · have same : ((d.crash left garbage).names path).map (d.crash left garbage).data =
        ((d.crash left garbage).names path).map d.data := by
      cases hi : (d.crash left garbage).names path with
      | none => rfl
      | some i => simp [Disk.crash, h.synced _ left_mem i hi]
    exact same ▸ h.reads _ left_mem
  · exact h.apart _ left_mem
  · exact h.apart _ left_mem
  · exact h.below _ left_mem

section

variable [DecidableEq κ]

theorem create (h : d.Kept path aside P) (hne : path ≠ aside) (empty : β) :
    (d.create aside empty).2.Kept path aside P ∧
      (d.create aside empty).2.names aside = some (d.create aside empty).1 := by
  cases haside : d.names aside with
  | some file =>
    simp only [Disk.create, haside]
    exact ⟨h.write haside empty, haside⟩
  | none =>
    simp only [Disk.create, haside]
    refine ⟨?_, Function.update_self ..⟩
    have fresh (names : Directory κ) (hnames : names ∈ d.names :: d.behind) (k : κ) :
        names k ≠ some d.next := fun hk => Nat.lt_irrefl _ (h.below names hnames k _ hk)
    -- the new file has a number of its own, so it is nowhere under `path`
    have widened : ({ d with next := d.next + 1 } : Disk κ β).Kept path aside P :=
      { h with below := fun names hnames k i hi => Nat.lt_succ_of_lt (h.below names hnames k i hi) }
    have hpath : Function.update d.names aside (some d.next) path = d.names path :=
      Function.update_of_ne hne ..
    have named : (({ d with next := d.next + 1 } : Disk κ β).setNames
        (Function.update d.names aside (some d.next))).Kept path aside P := by
      refine widened.setNames (fun _ hr => hr) (fun i hi => ?_) ?_ (fun i hi => ?_) (fun k i hi => ?_)
      · exact h.synced _ List.mem_cons_self i (hpath ▸ hi)
      · rw [hpath]
        exact h.reads _ List.mem_cons_self
      · rw [Function.update_self] at hi
        obtain rfl := Option.some.inj hi
        refine ⟨fun hi => fresh _ List.mem_cons_self path (hpath.symm.trans hi), fun names hnames => ?_⟩
        exact fresh names hnames path
      · by_cases hk : k = aside
        · rw [hk, Function.update_self] at hi
          obtain rfl := Option.some.inj hi
          exact Nat.lt_succ_self _
        · rw [Function.update_of_ne hk] at hi
          exact Nat.lt_succ_of_lt (h.below _ List.mem_cons_self k i hi)
    refine named.write_other (fun names hnames => ?_) empty
    rcases List.mem_cons.mp hnames with rfl | hold
    · exact fun hi => fresh _ List.mem_cons_self path (hpath.symm.trans hi)
    · exact fresh names hold path

/-- A synced file takes the place of the one under `path`. -/
theorem rename (h : d.Kept path aside P) (hne : path ≠ aside) (haside : d.names aside = some file)
    (hfile : d.synced file = true) (hPQ : ∀ r, P r → Q r) (hQ : Q (some (d.data file))) :
    (d.rename aside path).Kept path aside Q := by
  have hpath : Function.update (Function.update d.names path (d.names aside)) aside none path =
      some file := by rw [Function.update_of_ne hne, Function.update_self, haside]
  refine h.setNames hPQ (fun i hi => ?_) ?_ (fun i hi => ?_) (fun k i hi => ?_)
  · rw [hpath] at hi
    exact Option.some.inj hi ▸ hfile
  · rw [hpath]
    exact hQ
  · rw [Function.update_self] at hi
    cases hi
  · by_cases hk : k = aside
    · rw [hk, Function.update_self] at hi
      cases hi
    · rw [Function.update_of_ne hk] at hi
      by_cases hp : k = path
      · rw [hp, Function.update_self] at hi
        exact h.below _ List.mem_cons_self aside i hi
      · rw [Function.update_of_ne hp] at hi
        exact h.below _ List.mem_cons_self k i hi

theorem remove (h : d.Kept path aside P) (hne : path ≠ aside) (hPQ : ∀ r, P r → Q r) (hQ : Q none) :
    (d.remove path).Kept path aside Q := by
  have hpath : Function.update d.names path none path = none := Function.update_self ..
  refine h.setNames hPQ (fun i hi => ?_) ?_ (fun i hi => ?_) (fun k i hi => ?_)
  · rw [hpath] at hi
    cases hi
  · rw [hpath]
    exact hQ
  · rw [Function.update_of_ne hne.symm] at hi
    refine ⟨by simp, fun names hnames hi' => h.current names hnames i hi' hi⟩
  · by_cases hk : k = path
    · rw [hk, hpath] at hi
      cases hi
    · rw [Function.update_of_ne hk] at hi
      exact h.below _ List.mem_cons_self k i hi

end

end Kept

end Disk

end BookAgent.Lib
