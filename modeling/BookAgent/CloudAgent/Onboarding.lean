import BookAgent.CloudAgent.DvpGc
import BookAgent.Lib.Fallible
import BookAgent.Lib.EnvLines
import BookAgent.Lib.Run

/-!
# Onboarding

The agent's identity and configuration in its env file (`cloud-agent/src/lib.rs`): the key pair is taken
from the command, from the file or made anew, the server's configuration is written over the file, and the
party is recorded. Onboarding may be run again at any time.
-/

namespace BookAgent.CloudAgent

open BookAgent.Lib

/-! ## The env file -/

/-- `None` if there is no file. -/
abbrev EnvFile := Option String

def readEnvValue (file : EnvFile) (key : String) : Option String :=
  file.bind fun content =>
    (readText isWhiteSpace key.toList content.toList).map String.ofList

def upsertEnvValue (file : EnvFile) (key value : String) : EnvFile :=
  some (String.ofList (upsertText key.toList value.toList (file.getD "").toList))

/-- The agent's own keys, which the server's configuration does not set. -/
def agentKeys : List String :=
  ["PARTY_AGENT", "PARTY_AGENT_PRIVATE_KEY", "PARTY_AGENT_PUBLIC_KEY", "ORDERBOOK_GRPC_URL"]

/-- The key and the value that a line of the server's configuration sets. -/
def serverLine (line : List Char) : Option (String × String) :=
  let line := trimChars line
  if line = [] ∨ line.head? = some '#' then none
  else (line.dropWhile (· ≠ '=')).tail?.bind fun value =>
    let key := String.ofList (trimChars (line.takeWhile (· ≠ '=')))
    let value := String.ofList (trimBlank (· == '"') (trimChars value))
    if key ∈ agentKeys then none else some (key, value)

def serverPairs (env : String) : List (String × String) :=
  (textLines env.toList).filterMap serverLine

def writeServerConfig (file : EnvFile) (rpc env : String) : EnvFile :=
  upsertEnvValue ((serverPairs env).foldl (fun file pair => upsertEnvValue file pair.1 pair.2) file)
    "ORDERBOOK_GRPC_URL" rpc

/-! ## The agent's key -/

/-- Base58 and Ed25519: the public key of a private key, both as text. -/
class KeyCrates where
  publicKey : List Char → Except String String

section Onboard

variable [KeyCrates]

def publicKeyOf (b58 : String) : Except String String := KeyCrates.publicKey (trimChars b58.toList)

/-- A value that is there and not empty. -/
def envValue (file : EnvFile) (name : String) : Option String :=
  (readEnvValue file name).filter fun v => decide (v ≠ "")

/-- The file afterwards, the public key, and the key to sign with. -/
abbrev OnboardKey := EnvFile × String × String

def suppliedKey (path : String) (file : EnvFile) (pk rpc : String) : Except String OnboardKey := do
  let pub ← publicKeyOf pk
  if (envValue file "PARTY_AGENT_PUBLIC_KEY").any fun existing => decide (existing ≠ pub) then
    .error ("the supplied private key does not match PARTY_AGENT_PUBLIC_KEY in " ++ path)
  else if (envValue file "PARTY_AGENT_PRIVATE_KEY").any fun existing =>
      decide (trimChars existing.toList ≠ trimChars pk.toList) then
    .error (path ++ " already holds a different PARTY_AGENT_PRIVATE_KEY — remove it or omit --private-key")
  else
    let file := upsertEnvValue file "PARTY_AGENT_PUBLIC_KEY" pub
    .ok (upsertEnvValue file "ORDERBOOK_GRPC_URL" rpc, pub, pk)

def recordedKey (file : EnvFile) (pk : String) : Except String OnboardKey := do
  let pub ← publicKeyOf pk
  .ok (upsertEnvValue file "PARTY_AGENT_PUBLIC_KEY" pub, pub, pk)

/-- A new key pair, private key first. -/
def freshKey (file : EnvFile) (rpc : String) (generated : Except String (String × String)) :
    Except String OnboardKey := do
  let pair ← generated
  let file := upsertEnvValue file "PARTY_AGENT_PRIVATE_KEY" pair.1
  let file := upsertEnvValue file "PARTY_AGENT_PUBLIC_KEY" pair.2
  .ok (upsertEnvValue file "ORDERBOOK_GRPC_URL" rpc, pair.2, pair.1)

/-- `prepare_onboard_key`; nothing is written before an error. -/
def prepareOnboardKey (path : String) (file : EnvFile) (supplied : Option String) (rpc : String)
    (generated : Except String (String × String)) : Except String OnboardKey :=
  supplied.elim
    ((envValue file "PARTY_AGENT_PRIVATE_KEY").elim
      (if (envValue file "PARTY_AGENT").isSome ∨ (envValue file "PARTY_AGENT_PUBLIC_KEY").isSome then
        .error (path ++ " already records an identity but no PARTY_AGENT_PRIVATE_KEY — " ++
          "pass --private-key or run in a terminal to be prompted")
      else freshKey file rpc generated)
      (recordedKey file))
    fun pk => suppliedKey path file pk rpc

end Onboard

/-! ## Reading what was written -/

theorem isWhiteSpace_equals : isWhiteSpace '=' = false := by decide

theorem isWhiteSpace_cr : isWhiteSpace '\r' = true := by decide

/-- Every line of the file that gives the key a value begins with it. -/
def FlushIn (file : EnvFile) (key : String) : Prop :=
  Flush isWhiteSpace key.toList (textLines (file.getD "").toList)

/-- A value as it is read back. -/
def readBack (value : String) : String := String.ofList (unquote (trimChars value.toList))

section Upsert

variable {file : EnvFile} {key other value : String}

theorem readEnvValue_eq : readEnvValue file key =
    (readText isWhiteSpace key.toList (file.getD "").toList).map String.ofList := by
  cases file with
  | none => rfl
  | some content => rfl

theorem readEnvValue_upsert_other (hkey : SetKey isWhiteSpace key.toList) (hline : OneLine key)
    (hvalue : OneLine value) (hother : '=' ∉ other.toList) (hne : other ≠ key) :
    readEnvValue (upsertEnvValue file key value) other = readEnvValue file other := by
  have hne : other.toList ≠ key.toList := fun heq => hne (String.toList_injective heq)
  rw [readEnvValue_eq, readEnvValue_eq, upsertEnvValue, Option.getD_some, String.toList_ofList,
    readText_upsert_other isWhiteSpace_equals isWhiteSpace_cr hkey hline hvalue hother hne]

theorem readEnvValue_upsert (hkey : ReadKey isWhiteSpace key.toList) (hvalue : OneLine value)
    (hflush : FlushIn file key) :
    readEnvValue (upsertEnvValue file key value) key = some (readBack value) := by
  rw [readEnvValue_eq, upsertEnvValue, Option.getD_some, String.toList_ofList,
    readText_upsert isWhiteSpace_equals isWhiteSpace_cr hkey hvalue hflush]
  rfl

theorem FlushIn.upsert (h : FlushIn file other) (hkey : SetKey isWhiteSpace key.toList)
    (hline : OneLine key) (hvalue : OneLine value) (hother : '=' ∉ other.toList) :
    FlushIn (upsertEnvValue file key value) other := by
  unfold FlushIn
  rw [upsertEnvValue, Option.getD_some, String.toList_ofList]
  exact h.upsertText isWhiteSpace_equals isWhiteSpace_cr hkey hline hvalue hother

end Upsert

/-! ## The server's configuration -/

/-- The value of the last pair with the key. -/
def lastValue (pairs : List (String × String)) (key : String) : Option String :=
  ((pairs.filter fun pair => decide (pair.1 = key)).getLast?).map Prod.snd

/-- A pair that can be written on a line of its own. -/
structure Writable (pair : String × String) : Prop where
  key : SetKey isWhiteSpace pair.1.toList
  oneLine : OneLine pair.1
  value : OneLine pair.2

theorem writable_of_serverLine {line : List Char} {pair : String × String} (hline : '\n' ∉ line)
    (h : serverLine line = some pair) : Writable pair ∧ pair.1 ∉ agentKeys := by
  have htrimmed : '\n' ∉ trimChars line := fun hc => hline (trimBlank_subset hc)
  unfold serverLine at h
  dsimp only at h
  split at h
  · cases h
  · obtain ⟨value, hvalue, h⟩ := Option.bind_eq_some_iff.mp h
    split at h
    · cases h
    · rename_i hagent
      obtain rfl := Option.some.inj h
      have hkey : ∀ c ∈ trimChars ((trimChars line).takeWhile (· ≠ '=')),
          c ∈ (trimChars line).takeWhile (· ≠ '=') := fun c hc => trimBlank_subset hc
      have htail : ∀ c ∈ value, c ∈ trimChars line := fun c hc => by
        refine (List.dropWhile_subset (· ≠ '=')) ?_
        cases hrest : (trimChars line).dropWhile (· ≠ '=') with
        | nil =>
          rw [hrest] at hvalue
          cases hvalue
        | cons d rest =>
          rw [hrest, List.tail?_cons] at hvalue
          exact List.mem_cons_of_mem d (Option.some.inj hvalue ▸ hc)
      refine ⟨⟨⟨?_, ?_⟩, oneLine_ofList fun hc => ?_, oneLine_ofList fun hc => ?_⟩, hagent⟩
      · rw [String.toList_ofList]
        intro hc
        simpa using List.mem_takeWhile_imp (hkey _ hc)
      · rw [String.toList_ofList]
        exact dropWhile_trimBlank
      · exact htrimmed ((List.takeWhile_subset _) (hkey _ hc))
      · exact htrimmed (htail _ (trimBlank_subset (trimBlank_subset hc)))

theorem writable_of_mem {env : String} {pair : String × String} (h : pair ∈ serverPairs env) :
    Writable pair ∧ pair.1 ∉ agentKeys := by
  obtain ⟨line, hline, hpair⟩ := List.mem_filterMap.mp h
  exact writable_of_serverLine (notMem_textLines hline) hpair

section Config

variable {file : EnvFile} {pairs : List (String × String)} {other : String}

/-- Pairs written one after the other: the last one of a key is read, and other keys as before. -/
theorem readEnvValue_foldl (hpairs : ∀ pair ∈ pairs, Writable pair)
    (hother : ReadKey isWhiteSpace other.toList) (hflush : FlushIn file other) :
    readEnvValue (pairs.foldl (fun file pair => upsertEnvValue file pair.1 pair.2) file) other =
        ((lastValue pairs other).map readBack).or (readEnvValue file other) ∧
      FlushIn (pairs.foldl (fun file pair => upsertEnvValue file pair.1 pair.2) file) other := by
  induction pairs generalizing file with
  | nil => exact ⟨rfl, hflush⟩
  | cons pair pairs ih =>
    obtain ⟨hpair, hrest⟩ := List.forall_mem_cons.mp hpairs
    have hnext : FlushIn (upsertEnvValue file pair.1 pair.2) other :=
      hflush.upsert hpair.key hpair.oneLine hpair.value hother.noEquals
    obtain ⟨hread, hkept⟩ := ih hrest hnext
    refine ⟨hread.trans ?_, hkept⟩
    by_cases heq : pair.1 = other
    · rw [← heq] at hother hflush ⊢
      rw [readEnvValue_upsert hother hpair.value hflush]
      simp only [lastValue, List.filter_cons, decide_true, if_true]
      cases hlast : pairs.filter fun p => decide (p.1 = pair.1) with
      | nil => simp
      | cons p ps => simp [List.getLast?_eq_getLast_of_ne_nil]
    · rw [readEnvValue_upsert_other hpair.key hpair.oneLine hpair.value hother.noEquals (Ne.symm heq)]
      simp [lastValue, heq]

/-- A key that no pair has reads as before. -/
theorem readEnvValue_foldl_other (hpairs : ∀ pair ∈ pairs, Writable pair ∧ pair.1 ≠ other)
    (hother : '=' ∉ other.toList) :
    readEnvValue (pairs.foldl (fun file pair => upsertEnvValue file pair.1 pair.2) file) other =
      readEnvValue file other := by
  induction pairs generalizing file with
  | nil => rfl
  | cons pair pairs ih =>
    obtain ⟨⟨hpair, hne⟩, hrest⟩ := List.forall_mem_cons.mp hpairs
    rw [List.foldl_cons, ih hrest,
      readEnvValue_upsert_other hpair.key hpair.oneLine hpair.value hother (Ne.symm hne)]

theorem setKey_ofList {cs : List Char} (h : '=' ∉ cs ∧ cs.dropWhile isWhiteSpace = cs ∧ '\n' ∉ cs) :
    SetKey isWhiteSpace (String.ofList cs).toList ∧ OneLine (String.ofList cs) := by
  refine ⟨?_, oneLine_ofList h.2.2⟩
  rw [String.toList_ofList]
  exact ⟨h.1, h.2.1⟩

theorem setKey_agentKeys : ∀ key ∈ agentKeys, SetKey isWhiteSpace key.toList ∧ OneLine key := by
  repeat refine List.forall_mem_cons.mpr ⟨setKey_ofList (by decide +kernel), ?_⟩
  exact List.forall_mem_nil _

theorem writable_rpc {rpc : String} (h : OneLine rpc) : Writable ("ORDERBOOK_GRPC_URL", rpc) := by
  obtain ⟨hset, hline⟩ := setKey_agentKeys "ORDERBOOK_GRPC_URL" (by simp [agentKeys])
  exact ⟨hset, hline, h⟩

variable {rpc env : String}

theorem readEnvValue_serverConfig_agent (hrpc : OneLine rpc) (hother : other ∈ agentKeys)
    (hne : other ≠ "ORDERBOOK_GRPC_URL") :
    readEnvValue (writeServerConfig file rpc env) other = readEnvValue file other := by
  have hrpc := writable_rpc hrpc
  have hequals : ∀ key ∈ agentKeys, '=' ∉ key.toList := fun key h => (setKey_agentKeys key h).1.noEquals
  unfold writeServerConfig
  rw [readEnvValue_upsert_other hrpc.key hrpc.oneLine hrpc.value (hequals other hother) hne]
  refine readEnvValue_foldl_other (fun pair hpair => ?_) (hequals other hother)
  obtain ⟨hwritable, hagent⟩ := writable_of_mem hpair
  exact ⟨hwritable, fun heq => hagent (heq ▸ hother)⟩

theorem flushIn_serverConfig (hrpc : OneLine rpc) (hother : ReadKey isWhiteSpace other.toList)
    (hflush : FlushIn file other) : FlushIn (writeServerConfig file rpc env) other := by
  have hrpc := writable_rpc hrpc
  have hkept := (@readEnvValue_foldl file (serverPairs env) other
    (fun pair hpair => (writable_of_mem hpair).1) hother hflush).2
  exact hkept.upsert hrpc.key hrpc.oneLine hrpc.value hother.noEquals

/-- The server's configuration over any file: a key reads as the last value that the server gives it,
the RPC URL as the command gives it, every other key as before; and whatever the server sends, the
agent's own keys keep their values. -/
theorem writeServerConfig_reads (hrpc : OneLine rpc) :
    (∀ other, ReadKey isWhiteSpace other.toList → FlushIn file other →
      readEnvValue (writeServerConfig file rpc env) other =
        if other = "ORDERBOOK_GRPC_URL" then some (readBack rpc)
        else ((lastValue (serverPairs env) other).map readBack).or (readEnvValue file other)) ∧
      ∀ other ∈ agentKeys, other ≠ "ORDERBOOK_GRPC_URL" →
        readEnvValue (writeServerConfig file rpc env) other = readEnvValue file other := by
  have hwritable := writable_rpc hrpc
  have hpairs : ∀ pair ∈ serverPairs env, Writable pair := fun pair hpair => (writable_of_mem hpair).1
  refine ⟨fun other hother hflush => ?_, fun other hother hne =>
    readEnvValue_serverConfig_agent hrpc hother hne⟩
  obtain ⟨hread, hkept⟩ := readEnvValue_foldl hpairs hother hflush
  unfold writeServerConfig
  split
  · rename_i heq
    rw [heq] at hother hkept ⊢
    exact readEnvValue_upsert hother hwritable.value hkept
  · rename_i hne
    rw [readEnvValue_upsert_other hwritable.key hwritable.oneLine hwritable.value hother.noEquals hne,
      hread]

/-- The server's own public key is left out, and its chain is written without the quotes. -/
theorem serverConfig_devnet :
    (∀ other, ReadKey isWhiteSpace other.toList → FlushIn none other →
      readEnvValue (writeServerConfig none "http://rpc" "PARTY_AGENT_PUBLIC_KEY=x\nCANTON_CHAIN=\"devnet\"")
        other =
        if other = "ORDERBOOK_GRPC_URL" then some (readBack "http://rpc")
        else ((lastValue (serverPairs "PARTY_AGENT_PUBLIC_KEY=x\nCANTON_CHAIN=\"devnet\"") other).map
          readBack).or (readEnvValue none other)) ∧
      ∀ other ∈ agentKeys, other ≠ "ORDERBOOK_GRPC_URL" →
        readEnvValue (writeServerConfig none "http://rpc"
          "PARTY_AGENT_PUBLIC_KEY=x\nCANTON_CHAIN=\"devnet\"") other = readEnvValue none other :=
  writeServerConfig_reads (by decide)

end Config

/-! ## The identity over any number of onboardings -/

/-- Letters and digits, as base58 writes. -/
def Plain (s : String) : Prop := s ≠ "" ∧ s.toList.all Char.isAlphanum = true

theorem plain_ofList {cs : List Char} (hne : cs ≠ []) (h : cs.all Char.isAlphanum = true) :
    Plain (String.ofList cs) := by
  unfold Plain
  rw [String.toList_ofList]
  exact ⟨fun heq => hne (String.ofList_eq_empty_iff.mp heq), h⟩

theorem isWhiteSpace_of_isAlphanum {c : Char} (h : c.isAlphanum = true) : isWhiteSpace c = false := by
  have hrange : ((65 ≤ c.toNat ∧ c.toNat ≤ 90) ∨ (97 ≤ c.toNat ∧ c.toNat ≤ 122)) ∨
      (48 ≤ c.toNat ∧ c.toNat ≤ 57) := by
    change ((decide (65 ≤ c.val ∧ c.val ≤ 90) || (97 ≤ c.val && c.val ≤ 122)) ||
      (48 ≤ c.val && c.val ≤ 57)) = true at h
    simp only [Bool.or_eq_true, Bool.and_eq_true, decide_eq_true_eq, UInt32.le_iff_toNat_le] at h
    exact h
  simp only [isWhiteSpace, Bool.or_eq_false_iff, decide_eq_false_iff_not, List.contains_eq_mem,
    List.mem_cons, List.not_mem_nil, or_false]
  omega

namespace Plain

variable {value : String}

theorem isAlphanum (h : Plain value) {c : Char} (hc : c ∈ value.toList) : c.isAlphanum = true :=
  List.all_eq_true.mp h.2 c hc

theorem oneLine (h : Plain value) : OneLine value := fun hc => by
  have hn := h.isAlphanum hc
  simp at hn

theorem trim (h : Plain value) : trimChars value.toList = value.toList :=
  trimBlank_eq_self fun _ hc => isWhiteSpace_of_isAlphanum (h.isAlphanum hc)

theorem readBack (h : Plain value) : readBack value = value := by
  have htrim := h.trim
  have hquote : ∀ q, q.isAlphanum = false → value.toList.head? ≠ some q := fun q hq hhead => by
    have hplain := h.isAlphanum (List.mem_of_mem_head? hhead)
    rw [hq] at hplain
    cases hplain
  unfold CloudAgent.readBack unquote
  simp [htrim, hquote '"' (by decide), hquote '\'' (by decide), String.ofList_toList]

end Plain

theorem readKey_privateKey : ReadKey isWhiteSpace "PARTY_AGENT_PRIVATE_KEY".toList where
  nonempty := by decide
  noEquals := by decide
  oneLine := by decide
  front := by decide
  noComment := by decide

theorem readKey_publicKey : ReadKey isWhiteSpace "PARTY_AGENT_PUBLIC_KEY".toList where
  nonempty := by decide
  noEquals := by decide
  oneLine := by decide
  front := by decide
  noComment := by decide

variable {file file' : EnvFile}

theorem envValue_upsert_other {name key value : String} (hpair : Writable (key, value))
    (hname : '=' ∉ name.toList) (hne : name ≠ key) :
    envValue (upsertEnvValue file key value) name = envValue file name := by
  unfold envValue
  rw [readEnvValue_upsert_other hpair.key hpair.oneLine hpair.value hname hne]

theorem envValue_upsert {name value : String} (hname : ReadKey isWhiteSpace name.toList)
    (hflush : FlushIn file name) (hvalue : Plain value) :
    envValue (upsertEnvValue file name value) name = some value := by
  unfold envValue
  rw [readEnvValue_upsert hname hvalue.oneLine hflush, hvalue.readBack]
  simp [hvalue.1]

variable {name value : String}

theorem privateKey_upsert (hpair : Writable (name, value)) (hne : name ≠ "PARTY_AGENT_PRIVATE_KEY") :
    envValue (upsertEnvValue file name value) "PARTY_AGENT_PRIVATE_KEY" =
      envValue file "PARTY_AGENT_PRIVATE_KEY" :=
  envValue_upsert_other hpair readKey_privateKey.noEquals hne.symm

theorem publicKey_upsert (hpair : Writable (name, value)) (hne : name ≠ "PARTY_AGENT_PUBLIC_KEY") :
    envValue (upsertEnvValue file name value) "PARTY_AGENT_PUBLIC_KEY" =
      envValue file "PARTY_AGENT_PUBLIC_KEY" :=
  envValue_upsert_other hpair readKey_publicKey.noEquals hne.symm

theorem rpcUrl_ne_privateKey : "ORDERBOOK_GRPC_URL" ≠ "PARTY_AGENT_PRIVATE_KEY" := by decide

theorem rpcUrl_ne_publicKey : "ORDERBOOK_GRPC_URL" ≠ "PARTY_AGENT_PUBLIC_KEY" := by decide

theorem publicKey_ne_privateKey : "PARTY_AGENT_PUBLIC_KEY" ≠ "PARTY_AGENT_PRIVATE_KEY" := by decide

/-- The lines of both keys begin with them. -/
structure Tidy (file : EnvFile) : Prop where
  privateKey : FlushIn file "PARTY_AGENT_PRIVATE_KEY"
  publicKey : FlushIn file "PARTY_AGENT_PUBLIC_KEY"

theorem Tidy.upsert (h : Tidy file) (hpair : Writable (name, value)) :
    Tidy (upsertEnvValue file name value) where
  privateKey := h.privateKey.upsert hpair.key hpair.oneLine hpair.value readKey_privateKey.noEquals
  publicKey := h.publicKey.upsert hpair.key hpair.oneLine hpair.value readKey_publicKey.noEquals

section Identity

variable [KeyCrates] {pub key : String}

/-- The file records the public key, and no private key but one of it. -/
structure Recorded (file : EnvFile) (pub : String) : Prop where
  publicKey : envValue file "PARTY_AGENT_PUBLIC_KEY" = some pub
  privateKey : ∀ k, envValue file "PARTY_AGENT_PRIVATE_KEY" = some k → publicKeyOf k = .ok pub

theorem Recorded.upsert (h : Recorded file pub) (hpair : Writable (name, value))
    (hprivate : name ≠ "PARTY_AGENT_PRIVATE_KEY") (hpublic : name ≠ "PARTY_AGENT_PUBLIC_KEY") :
    Recorded (upsertEnvValue file name value) pub where
  publicKey := (publicKey_upsert hpair hpublic).trans h.publicKey
  privateKey k hk := h.privateKey k ((privateKey_upsert hpair hprivate).symm.trans hk)

omit [KeyCrates] in
theorem writable_publicKey (h : Plain pub) : Writable ("PARTY_AGENT_PUBLIC_KEY", pub) :=
  ⟨readKey_publicKey.set, readKey_publicKey.oneLine, h.oneLine⟩

/-- A public key that is written over the file is recorded, if the private key there is its own. -/
theorem recorded_upsert (hflush : FlushIn file "PARTY_AGENT_PUBLIC_KEY") (hplain : Plain pub)
    (hprivate : ∀ k, envValue file "PARTY_AGENT_PRIVATE_KEY" = some k → publicKeyOf k = .ok pub) :
    Recorded (upsertEnvValue file "PARTY_AGENT_PUBLIC_KEY" pub) pub where
  publicKey := envValue_upsert readKey_publicKey hflush hplain
  privateKey k hk := by
    rw [privateKey_upsert (writable_publicKey hplain) publicKey_ne_privateKey] at hk
    exact hprivate k hk

/-- What `prepare_onboard_key` leaves, and that it changes no identity. -/
structure KeyPrepared (file file' : EnvFile) (pub key : String) : Prop where
  derives : publicKeyOf key = .ok pub
  recorded : Recorded file' pub
  tidy : Tidy file'
  kept : ∀ k, envValue file "PARTY_AGENT_PRIVATE_KEY" = some k →
    envValue file' "PARTY_AGENT_PRIVATE_KEY" = some k
  same : ∀ old, Recorded file old → old = pub

variable {path rpc : String} {pk : String}

theorem KeyPrepared.setRpc (h : KeyPrepared file file' pub key) (hrpc : OneLine rpc) :
    KeyPrepared file (upsertEnvValue file' "ORDERBOOK_GRPC_URL" rpc) pub key where
  derives := h.derives
  recorded := h.recorded.upsert (writable_rpc hrpc) rpcUrl_ne_privateKey rpcUrl_ne_publicKey
  tidy := h.tidy.upsert (writable_rpc hrpc)
  kept k hk := (privateKey_upsert (writable_rpc hrpc) rpcUrl_ne_privateKey).trans (h.kept k hk)
  same := h.same

theorem prepared_public (h : Tidy file) (hplain : Plain pub) (hderives : publicKeyOf key = .ok pub)
    (hprivate : ∀ k, envValue file "PARTY_AGENT_PRIVATE_KEY" = some k → publicKeyOf k = .ok pub)
    (hsame : ∀ old, Recorded file old → old = pub) :
    KeyPrepared file (upsertEnvValue file "PARTY_AGENT_PUBLIC_KEY" pub) pub key where
  derives := hderives
  recorded := recorded_upsert h.publicKey hplain hprivate
  tidy := h.upsert (writable_publicKey hplain)
  kept _ hk := (privateKey_upsert (writable_publicKey hplain) publicKey_ne_privateKey).trans hk
  same := hsame

theorem prepared_supplied (hplain : ∀ cs p, KeyCrates.publicKey cs = .ok p → Plain p) (h : Tidy file)
    (hrpc : OneLine rpc) (hok : suppliedKey path file pk rpc = .ok (file', pub, key)) :
    KeyPrepared file file' pub key := by
  unfold suppliedKey at hok
  obtain ⟨p, hp, hok⟩ := bind_eq_ok.mp hok
  split at hok
  · cases hok
  · rename_i hpublic
    split at hok
    · cases hok
    · rename_i hprivate
      simp only [Except.ok.injEq, Prod.mk.injEq] at hok
      obtain ⟨rfl, rfl, rfl⟩ := hok
      refine (prepared_public h (hplain _ _ hp) hp (fun k hk => ?_) fun old hold => ?_).setRpc hrpc
      · have hsame : trimChars k.toList = trimChars pk.toList := by
          by_contra hne
          exact hprivate (by simp [hk, hne])
        rw [publicKeyOf, hsame]
        exact hp
      · by_contra hne
        exact hpublic (by simp [hold.publicKey, hne])

theorem prepared_recorded (hplain : ∀ cs p, KeyCrates.publicKey cs = .ok p → Plain p) (h : Tidy file)
    (hpk : envValue file "PARTY_AGENT_PRIVATE_KEY" = some pk)
    (hok : recordedKey file pk = .ok (file', pub, key)) : KeyPrepared file file' pub key := by
  unfold recordedKey at hok
  obtain ⟨p, hp, hok⟩ := bind_eq_ok.mp hok
  simp only [Except.ok.injEq, Prod.mk.injEq] at hok
  obtain ⟨rfl, rfl, rfl⟩ := hok
  refine prepared_public h (hplain _ _ hp) hp (fun k hk => ?_) fun old hold => ?_
  · rw [hpk] at hk
    exact Option.some.inj hk ▸ hp
  · exact Except.ok.inj ((hold.privateKey pk hpk).symm.trans hp)

/-- A pair that `generate_keypair` may make. -/
structure KeyPair (pair : String × String) : Prop where
  privatePlain : Plain pair.1
  publicPlain : Plain pair.2
  derives : publicKeyOf pair.1 = .ok pair.2

theorem prepared_fresh {generated : Except String (String × String)} (h : Tidy file) (hrpc : OneLine rpc)
    (hpair : ∀ pair, generated = .ok pair → KeyPair pair)
    (hnone : envValue file "PARTY_AGENT_PRIVATE_KEY" = none)
    (hpublic : envValue file "PARTY_AGENT_PUBLIC_KEY" = none)
    (hok : freshKey file rpc generated = .ok (file', pub, key)) : KeyPrepared file file' pub key := by
  unfold freshKey at hok
  obtain ⟨pair, hgenerated, hok⟩ := bind_eq_ok.mp hok
  simp only [Except.ok.injEq, Prod.mk.injEq] at hok
  obtain ⟨rfl, rfl, rfl⟩ := hok
  have hpair := hpair pair hgenerated
  have hwrite : Writable ("PARTY_AGENT_PRIVATE_KEY", pair.1) :=
    ⟨readKey_privateKey.set, readKey_privateKey.oneLine, hpair.privatePlain.oneLine⟩
  have hread := envValue_upsert readKey_privateKey h.privateKey hpair.privatePlain
  have hwritten := prepared_public (h.upsert hwrite) hpair.publicPlain hpair.derives
    (fun k hk => by
      rw [hread] at hk
      exact Option.some.inj hk ▸ hpair.derives)
    fun old hold => Except.ok.inj ((hold.privateKey _ hread).symm.trans hpair.derives)
  refine KeyPrepared.setRpc ⟨hwritten.derives, hwritten.recorded, hwritten.tidy, fun k hk => ?_,
    fun old hold => ?_⟩ hrpc
  · rw [hnone] at hk
    cases hk
  · exact absurd (hpublic.symm.trans hold.publicKey) (by simp)

/-- **The spec of `prepare_onboard_key`.** -/
theorem prepareOnboardKey_spec {supplied : Option String} {generated : Except String (String × String)}
    (hplain : ∀ cs p, KeyCrates.publicKey cs = .ok p → Plain p)
    (hpair : ∀ pair, generated = .ok pair → KeyPair pair) (h : Tidy file) (hrpc : OneLine rpc)
    (hok : prepareOnboardKey path file supplied rpc generated = .ok (file', pub, key)) :
    KeyPrepared file file' pub key := by
  unfold prepareOnboardKey at hok
  cases supplied with
  | some pk => exact prepared_supplied hplain h hrpc hok
  | none =>
    cases hpk : envValue file "PARTY_AGENT_PRIVATE_KEY" with
    | some pk =>
      rw [hpk] at hok
      exact prepared_recorded hplain h hpk hok
    | none =>
      simp only [hpk, Option.elim_none] at hok
      split at hok
      · cases hok
      · rename_i hidentity
        simp only [not_or, Option.not_isSome_iff_eq_none] at hidentity
        exact prepared_fresh h hrpc hpair hpk hidentity.2 hok

end Identity

/-- The env file, and the public key and the key to sign with of each `prepare_onboard_key`, latest first. -/
structure OnboardWorld where
  file : EnvFile
  returned : List (String × String)

/-- What onboarding writes; `supplied`, `rpc` and the party come from the command or from the server. -/
inductive OnboardEvent
  | prepare (path : String) (supplied : Option String) (rpc : String)
      (generated : Except String (String × String))
  | serverConfig (rpc env : String)
  | party (id : String)

namespace OnboardWorld

variable [KeyCrates] {path rpc env id : String} {supplied : Option String}
  {generated : Except String (String × String)}

def prepare (w : OnboardWorld) (path : String) (supplied : Option String) (rpc : String)
    (generated : Except String (String × String)) : OnboardWorld :=
  match prepareOnboardKey path w.file supplied rpc generated with
  | .ok (file, identity) => ⟨file, identity :: w.returned⟩
  | .error _ => w

def apply (w : OnboardWorld) : OnboardEvent → OnboardWorld
  | .prepare path supplied rpc generated => w.prepare path supplied rpc generated
  | .serverConfig rpc env => { w with file := writeServerConfig w.file rpc env }
  | .party id => { w with file := upsertEnvValue w.file "PARTY_AGENT" id }

/-- The texts that are written have one line, and a pair that is generated is a key pair. The server's
configuration is anything. -/
def Allowed (_ : OnboardWorld) : OnboardEvent → Prop
  | .prepare _ _ rpc generated => OneLine rpc ∧ ∀ pair, generated = .ok pair → KeyPair pair
  | .serverConfig rpc _ => OneLine rpc
  | .party id => OneLine id

structure Sound (start : EnvFile) (w : OnboardWorld) : Prop where
  tidy : Tidy w.file
  kept : ∀ k, envValue start "PARTY_AGENT_PRIVATE_KEY" = some k →
    envValue w.file "PARTY_AGENT_PRIVATE_KEY" = some k
  identities : ∀ i ∈ w.returned, publicKeyOf i.2 = .ok i.1 ∧ Recorded w.file i.1

namespace Sound

variable {start : EnvFile} {w : OnboardWorld}

/-- A file that reads the same for both keys. -/
theorem write (h : Sound start w) {file : EnvFile} (htidy : Tidy file)
    (hprivate : envValue file "PARTY_AGENT_PRIVATE_KEY" = envValue w.file "PARTY_AGENT_PRIVATE_KEY")
    (hpublic : envValue file "PARTY_AGENT_PUBLIC_KEY" = envValue w.file "PARTY_AGENT_PUBLIC_KEY") :
    Sound start { w with file } where
  tidy := htidy
  kept k hk := hprivate.trans (h.kept k hk)
  identities i hi := by
    obtain ⟨hderives, hrecorded⟩ := h.identities i hi
    exact ⟨hderives, hpublic.trans hrecorded.publicKey,
      fun k hk => hrecorded.privateKey k (hprivate.symm.trans hk)⟩

theorem serverConfig (h : Sound start w) (hrpc : OneLine rpc) :
    Sound start (w.apply (.serverConfig rpc env)) := by
  refine h.write ⟨flushIn_serverConfig hrpc readKey_privateKey h.tidy.privateKey,
    flushIn_serverConfig hrpc readKey_publicKey h.tidy.publicKey⟩ ?_ ?_
  · unfold envValue
    rw [readEnvValue_serverConfig_agent hrpc (by simp [agentKeys]) rpcUrl_ne_privateKey.symm]
  · unfold envValue
    rw [readEnvValue_serverConfig_agent hrpc (by simp [agentKeys]) rpcUrl_ne_publicKey.symm]

theorem party (h : Sound start w) (hid : OneLine id) : Sound start (w.apply (.party id)) := by
  obtain ⟨hset, hline⟩ := setKey_agentKeys "PARTY_AGENT" (by simp [agentKeys])
  have hpair : Writable ("PARTY_AGENT", id) := ⟨hset, hline, hid⟩
  exact h.write (h.tidy.upsert hpair) (privateKey_upsert hpair (by decide))
    (publicKey_upsert hpair (by decide))

theorem prepare (hplain : ∀ cs p, KeyCrates.publicKey cs = .ok p → Plain p) (h : Sound start w)
    (hrpc : OneLine rpc) (hpair : ∀ pair, generated = .ok pair → KeyPair pair) :
    Sound start (w.prepare path supplied rpc generated) := by
  unfold OnboardWorld.prepare
  split
  · rename_i file identity hok
    have hprepared := prepareOnboardKey_spec hplain hpair h.tidy hrpc hok
    refine ⟨hprepared.tidy, fun k hk => hprepared.kept k (h.kept k hk), fun i hi => ?_⟩
    rcases List.mem_cons.mp hi with rfl | hi
    · exact ⟨hprepared.derives, hprepared.recorded⟩
    · obtain ⟨hderives, hrecorded⟩ := h.identities i hi
      exact ⟨hderives, hprepared.same i.1 hrecorded ▸ hprepared.recorded⟩
  · exact h

theorem apply (hplain : ∀ cs p, KeyCrates.publicKey cs = .ok p → Plain p) (h : Sound start w)
    {e : OnboardEvent} (hallowed : Allowed w e) : Sound start (w.apply e) := by
  cases e with
  | prepare path supplied rpc generated => exact h.prepare hplain hallowed.1 hallowed.2
  | serverConfig rpc env => exact h.serverConfig hallowed
  | party id => exact h.party hallowed

end Sound

/-- However often onboarding is run again, with whatever keys the command gives and whatever
configuration the server sends, over any file whose key lines are flush: a private key in the file is
never changed, and every run signs with a key of one public key, which the file records, and of which a
private key in the file is one too. -/
theorem identity_fixed (hplain : ∀ cs p, KeyCrates.publicKey cs = .ok p → Plain p) {start : EnvFile}
    (htidy : Tidy start) {w : OnboardWorld} (run : Reachable Allowed apply ⟨start, []⟩ w) :
    (∀ k, envValue start "PARTY_AGENT_PRIVATE_KEY" = some k →
      envValue w.file "PARTY_AGENT_PRIVATE_KEY" = some k) ∧
    (∀ i ∈ w.returned, publicKeyOf i.2 = .ok i.1 ∧
      envValue w.file "PARTY_AGENT_PUBLIC_KEY" = some i.1 ∧
      ∀ k, envValue w.file "PARTY_AGENT_PRIVATE_KEY" = some k → publicKeyOf k = .ok i.1) ∧
    ∀ i ∈ w.returned, ∀ j ∈ w.returned, i.1 = j.1 := by
  have sound : Sound start w := run.invariant (Sound start)
    ⟨htidy, fun _ hk => hk, fun _ hi => absurd hi List.not_mem_nil⟩
    fun _ _ hinv hallowed => hinv.apply hplain hallowed
  refine ⟨sound.kept, fun i hi => ?_, fun i hi j hj => ?_⟩
  · obtain ⟨hderives, hrecorded⟩ := sound.identities i hi
    exact ⟨hderives, hrecorded.publicKey, hrecorded.privateKey⟩
  · have hfirst := (sound.identities i hi).2.publicKey
    have hsecond := (sound.identities j hj).2.publicKey
    exact Option.some.inj (hfirst.symm.trans hsecond)

end OnboardWorld

section Example

namespace OnboardWorld

/-- A key pair, private key first. -/
def somePair : String × String :=
  ("49W385L4rePHy6PAaQUovbD2aacgN4HsKXSMeUzRg4fmwXszN91JuMFrQRj3vMDpZuRF3ZknQBuRBoWQJEfXstMw",
    "FVen3X669xLzsi6N2V91DoiyzHzg1uAgqiT8jZ9nS96Z")

def somePublicKey (cs : List Char) : Except String String :=
  if cs = somePair.1.toList then .ok somePair.2 else .error "Invalid base58 private key"

/-- The crates at that private key. -/
abbrev somePairCrates : KeyCrates := ⟨somePublicKey⟩

theorem plain_somePair : Plain somePair.1 ∧ Plain somePair.2 :=
  ⟨plain_ofList (by decide) (by decide +kernel), plain_ofList (by decide) (by decide +kernel)⟩

theorem plain_of_somePublicKey {cs : List Char} {p : String} (h : somePublicKey cs = .ok p) : Plain p := by
  unfold somePublicKey at h
  split at h
  · exact Except.ok.inj h ▸ plain_somePair.2
  · cases h

theorem keyPair_somePair : @KeyPair somePairCrates somePair := by
  refine @KeyPair.mk somePairCrates _ plain_somePair.1 plain_somePair.2 ?_
  change somePublicKey (trimChars somePair.1.toList) = .ok somePair.2
  rw [plain_somePair.1.trim]
  exact if_pos rfl

/-- A new key, and a server that sends another. -/
def onboardOnce : List OnboardEvent :=
  [.prepare ".env" none "http://rpc" (.ok somePair),
    .serverConfig "http://rpc" "PARTY_AGENT_PUBLIC_KEY=x\nCANTON_CHAIN=devnet",
    .party "agent::1220"]

theorem tidy_none : Tidy none := by
  constructor <;>
  · intro line hline
    simp [textLines] at hline

theorem onboardOnce_run :
    @Admits _ _ (@Allowed somePairCrates) (@apply somePairCrates) ⟨none, []⟩ onboardOnce :=
  ⟨⟨by decide, fun _ hpair => Except.ok.inj hpair ▸ keyPair_somePair⟩, (oneLine_ofList (by decide) : OneLine "http://rpc"),
    (oneLine_ofList (by decide) : OneLine "agent::1220"), trivial⟩

theorem onboardOnce_identity :
    let w := onboardOnce.foldl (@apply somePairCrates) ⟨none, []⟩
    w.returned = [(somePair.2, somePair.1)] ∧
      (∀ k, envValue none "PARTY_AGENT_PRIVATE_KEY" = some k →
        envValue w.file "PARTY_AGENT_PRIVATE_KEY" = some k) ∧
      (∀ i ∈ w.returned, @publicKeyOf somePairCrates i.2 = .ok i.1 ∧
        envValue w.file "PARTY_AGENT_PUBLIC_KEY" = some i.1 ∧
        ∀ k, envValue w.file "PARTY_AGENT_PRIVATE_KEY" = some k →
          @publicKeyOf somePairCrates k = .ok i.1) ∧
      ∀ i ∈ w.returned, ∀ j ∈ w.returned, i.1 = j.1 :=
  ⟨rfl, @identity_fixed somePairCrates (fun _ _ h => plain_of_somePublicKey h) none tidy_none _
    (Reachable.start.foldl onboardOnce_run)⟩

end OnboardWorld

end Example

end BookAgent.CloudAgent
