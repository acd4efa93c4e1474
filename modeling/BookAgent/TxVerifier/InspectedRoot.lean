import BookAgent.Lib.Sha256
import BookAgent.TxVerifier.Binding
import BookAgent.TxVerifier.RootExercise

/-!
# The inspected root and the hashed root

The request inspectors take the first node with the root id, the hasher takes
the last. What was inspected is what is hashed exactly when these two are the
same node.
-/

namespace BookAgent.TxVerifier

open BookAgent.Lib Inspect

/-! ## The inspected Create -/

section Checks

variable {w w' : List String}

@[simp] theorem onlyRoot_eq_some {tx : DamlTransaction} {id : String} :
    onlyRoot tx = some id ↔ tx.roots = [id] := by
  unfold onlyRoot
  split <;> simp_all

theorem extractRootCreate_ok {p : PreparedTransaction} {opName party : String} {c : Create}
    (h : extractRootCreate p opName party w = .ok (c, w')) :
    ∃ tx rootId n, p.transaction = some tx ∧ tx.roots = [rootId] ∧
      tx.nodes.find? (·.nodeId == rootId) = some n ∧ asCreate n = some c := by
  simp only [extractRootCreate, bind_ok, require_ok, checkActAs_ok, orReject_ok, warnUnless_ok,
    onlyRoot_eq_some, and_assoc, exists_and_left, exists_eq_left, exists_const] at h
  obtain ⟨tx, htx, -, -, -, -, -, rootId, hroots, n, hn, hc, -⟩ := h
  exact ⟨tx, rootId, n, htx, hroots, hn, hc⟩

end Checks

/-! ## The two lookups -/

section Lookup

/-- Insertion in list order keeps the last node of an id. -/
theorem lookup_buildNodesDict (tx : DamlTransaction) (id : String) :
    (buildNodesDict tx).lookup id = tx.nodes.reverse.find? (·.nodeId == id) := by
  have fold : ∀ (l : List Node) (dict : NodesDict),
      (l.foldl (fun d n => d.insert n.nodeId n) dict).lookup id =
        (l.reverse.find? (·.nodeId == id)).or (dict.lookup id) := by
    intro l
    induction l with
    | nil => intro dict; rfl
    | cons n l ih =>
      intro dict
      rw [List.foldl_cons, ih, List.reverse_cons, List.find?_append]
      by_cases h : n.nodeId = id
      · subst h
        cases List.find? (fun m => m.nodeId == n.nodeId) l.reverse <;> simp
      · have hne : id ≠ n.nodeId := fun e => h e.symm
        cases List.find? (fun m => m.nodeId == id) l.reverse <;>
          simp [h, AList.lookup_insert_ne hne]
  have all := fold tx.nodes ∅
  rw [AList.lookup_empty, Option.or_none] at all
  exact all

end Lookup

/-! ## What is checked and what is hashed -/

section Roots

variable [Hex]

/-- A Create of an expected template whose fields name the expected parties and
which the first of them signs. -/
def CreateMatches (ok : Identifier → Bool) (fields : List (String × String)) (signatory : String)
    (c : Create) : Prop :=
  (∃ tid, c.templateId = some tid ∧ ok tid = true) ∧
  (∃ r, c.argument.bind asRecord = some r ∧
    ∀ f ∈ fields, (getRecordField r f.1).bind getParty = some f.2) ∧
  signatory ∈ c.signatories

/-- What the inspector of a request establishes about the Create it looks at. -/
def requestedCreate : OperationExpectation → Option (Create → Prop)
  | .requestUserService party => some (CreateMatches
      (templateMatches · "Utility.Settlement.App.V1.Service.User" "UserServiceRequest")
      [("user", party)] party)
  | .requestPreapproval party => some (CreateMatches
      (fun tid => isCip56Preapproval tid || isSplicePreapproval tid) [("receiver", party)] party)
  | .requestRecurringPayasyougo party appParty _ => some (CreateMatches
      (templateMatches · "RecurringPaymentRequest" "RecurringPaymentRequest")
      [("user", party), ("app", appParty)] party)
  | _ => none

/-- The inspector's root: the first node with the only root id, with the checks
passed on its Create. -/
def InspectedRoot (checked : Create → Prop) (tx : DamlTransaction) (rootId : String) (n : Node) :
    Prop :=
  tx.roots = [rootId] ∧ tx.nodes.find? (·.nodeId == rootId) = some n ∧
    ∃ c, asCreate n = some c ∧ checked c

/-- The hasher's root: the node it finds under the id, whose encoding is the only
one below the transaction's hash. -/
def HashedRoot (sha256 : Bytes → Digest) (p : PreparedTransaction) (tx : DamlTransaction)
    (hashingSchemeVersion : String) (hash : Digest) (rootId : String) (n : Node) : Prop :=
  (buildNodesDict tx).lookup rootId = some n ∧
  ∃ left seen seen' acc m metaAcc,
    nodeBytes (encodeNodeIds sha256 (nodeWalk tx) left) (nodeWalk tx) n seen = .ok (acc, seen') ∧
    p.metadata = some m ∧
    metadataBytes sha256 m (parseHashingVersion hashingSchemeVersion) = .ok metaAcc ∧
    hash = sha256 (finalBytes (sha256 (hashPurpose ++ (strVal tx.version ++
      (i32Val (lenAsI32 1) ++ (sha256 acc).val)))) (sha256 metaAcc))

omit [Hex] in
theorem inspectedRoot_of_accepted {p : PreparedTransaction} {e : OperationExpectation}
    {checked : Create → Prop} {run : PreparedTransaction → Except String InspectionResult}
    {r : InspectionResult} (he : requestedCreate e = some checked) (hrun : inspector e = some run)
    (h : run p = .ok r) (hacc : r.accepted = true) :
    ∃ tx rootId n, p.transaction = some tx ∧ InspectedRoot checked tx rootId n := by
  cases e <;> simp only [requestedCreate, reduceCtorEq, Option.some.injEq] at he <;>
    subst he <;> simp only [inspector, Option.some.injEq] at hrun <;> subst hrun <;>
    obtain ⟨summary, warnings, passed, -⟩ := accepted_iff.mp ⟨h, hacc⟩ <;>
    simp only [bind_ok, require_ok, checkCreateTemplate_ok, checkPartyField_ok,
      checkDailyAmount_ok, checkSignatories_ok, pure_ok, and_assoc, exists_and_left,
      exists_eq_left, exists_const] at passed
  case requestPreapproval party =>
    obtain ⟨c, w, hc, tid, htid, hok, arg, harg, rec, hrec, hfield, hsig, -⟩ := passed
    obtain ⟨tx, rootId, n, htx, hroots, hn, hcn⟩ := extractRootCreate_ok hc
    refine ⟨tx, rootId, n, htx, hroots, hn, c, hcn, ⟨tid, htid, hok⟩, ⟨rec, ?_, ?_⟩, hsig⟩
    · rw [harg, Option.bind_some, hrec]
    · simpa using hfield
  case requestRecurringPayasyougo party app amount =>
    obtain ⟨c, w, hc, tid, htid, hok, arg, harg, rec, hrec, huser, happ, hsig, -⟩ := passed
    obtain ⟨tx, rootId, n, htx, hroots, hn, hcn⟩ := extractRootCreate_ok hc
    refine ⟨tx, rootId, n, htx, hroots, hn, c, hcn, ⟨tid, htid, hok⟩, ⟨rec, ?_, ?_⟩, hsig⟩
    · rw [harg, Option.bind_some, hrec]
    · simpa using ⟨huser, happ⟩
  case requestUserService party =>
    obtain ⟨c, w, hc, tid, htid, hok, arg, harg, rec, hrec, hfield, hsig, -⟩ := passed
    obtain ⟨tx, rootId, n, htx, hroots, hn, hcn⟩ := extractRootCreate_ok hc
    refine ⟨tx, rootId, n, htx, hroots, hn, c, hcn, ⟨tid, htid, hok⟩, ⟨rec, ?_, ?_⟩, hsig⟩
    · rw [harg, Option.bind_some, hrec]
    · simpa using hfield

/-- A hash other than the sentinel was computed. -/
theorem computeFinalHash_of_computeHash {sha256 : Bytes → Digest}
    {decode : Bytes → Option PreparedTransaction} {bytes : Bytes} {v : String} {hash : Digest}
    (h : computeHash sha256 decode bytes v = .ok hash) (hne : hash ≠ sentinel) :
    ∃ p, decode bytes = some p ∧ computeFinalHash sha256 p v = .ok hash := by
  obtain ⟨p, hp, h⟩ := bind_eq_ok.mp h
  refine ⟨p, context_eq_ok.mp hp, ?_⟩
  split at h
  · next d hd => rw [hd, pure_eq_ok.mp h]
  · exact absurd (pure_eq_ok.mp h).symm hne

theorem hashedRoot_of_computeFinalHash {sha256 : Bytes → Digest} {p : PreparedTransaction}
    {tx : DamlTransaction} {v rootId : String} {hash : Digest} (htx : p.transaction = some tx)
    (hroots : tx.roots = [rootId]) (h : computeFinalHash sha256 p v = .ok hash) :
    ∃ n, HashedRoot sha256 p tx v hash rootId n := by
  obtain ⟨tx', htx', m, hm, acc, hacc, macc, hmacc, rfl⟩ := computeFinalHash_eq_ok.mp h
  obtain rfl := Option.some.inj (htx.symm.trans htx')
  obtain ⟨⟨roots, s⟩, hids, hacc⟩ := bind_eq_ok.mp hacc
  rw [hroots] at hids
  obtain ⟨⟨hs, s'⟩, each, hids⟩ := bind_eq_ok.mp hids
  obtain ⟨rfl, -⟩ := Prod.mk.inj (pure_eq_ok.mp hids)
  obtain ⟨ds, rfl, hds⟩ := hashEach_eq_ok each
  cases hds with
  | cons hd hnil =>
    cases hnil
    obtain ⟨n, nacc, seen, seen', hn, hnacc, rfl⟩ := hd
    refine ⟨n, hn, _, seen, seen', nacc, m, macc, hnacc, hm, hmacc, ?_⟩
    rw [← pure_eq_ok.mp hacc]
    simp

/-- **Inspected against hashed.** The node a request inspector has checked is the
node the hash puts under the root id exactly when the first and the last node of
the list with that id are the same. -/
theorem inspectedRoot_eq_hashedRoot_iff {sha256 : Bytes → Digest}
    {decode : Bytes → Option PreparedTransaction} {bytes : Bytes} {e : OperationExpectation}
    {checked : Create → Prop} {v : String} {r : InspectionResult} {hash : Digest}
    (he : requestedCreate e = some checked) (hins : inspect decode bytes e = .ok r)
    (hacc : r.accepted = true) (hhash : computeHash sha256 decode bytes v = .ok hash)
    (hne : hash ≠ sentinel) :
    ∃ p tx rootId inspected hashed, decode bytes = some p ∧ p.transaction = some tx ∧
      InspectedRoot checked tx rootId inspected ∧
      HashedRoot sha256 p tx v hash rootId hashed ∧
      (inspected = hashed ↔ tx.nodes.find? (·.nodeId == rootId) =
        tx.nodes.reverse.find? (·.nodeId == rootId)) := by
  obtain ⟨run, hrun⟩ : ∃ run, inspector e = some run := by
    cases e <;> simp only [requestedCreate, reduceCtorEq] at he <;> exact ⟨_, rfl⟩
  obtain ⟨p, hp, hr⟩ := (inspect_eq_ok hrun).mp hins
  obtain ⟨tx, rootId, n, htx, hn⟩ := inspectedRoot_of_accepted he hrun hr hacc
  obtain ⟨p', hp', hfinal⟩ := computeFinalHash_of_computeHash hhash hne
  obtain rfl := Option.some.inj (hp.symm.trans hp')
  obtain ⟨n', hn'⟩ := hashedRoot_of_computeFinalHash htx hn.1 hfinal
  refine ⟨p, tx, rootId, n, n', hp, htx, hn, hn', ?_⟩
  rw [hn.2.1, ← lookup_buildNodesDict, hn'.1, Option.some.injEq]

end Roots

/-! ## A list that repeats the root id -/

section RepeatedId

local instance requestHex : Hex := pairedHex

def serviceRequest (party entityName : String) : Create where
  lfVersion := "2.1"
  contractId := "00"
  packageName := "utility-settlement-app-v1"
  templateId := some
    { packageId := "p", moduleName := "Utility.Settlement.App.V1.Service.User", entityName }
  argument := some (.record { recordId := none, fields := [⟨"user", some (.party party)⟩] })
  signatories := [party]
  stakeholders := [party]

/-- A service request by `alice`, made of the given nodes. -/
def preparedNodes (nodes : List Node) : PreparedTransaction where
  transaction := some { version := "2.1", roots := ["0"], nodes, nodeSeeds := [] }
  metadata := some (actingFor "alice")

def requestNode : Node := createNode "0" (serviceRequest "alice" "UserServiceRequest")

def otherNode : Node := createNode "0" (serviceRequest "mallory" "UserService")

/-- Whether a hash other than the sentinel was computed. -/
def hashed (x : Except String Digest) : Bool := x.toOption.any (· ≠ sentinel)

theorem hashed_iff {x : Except String Digest} :
    hashed x = true ↔ ∃ d, x = .ok d ∧ d ≠ sentinel := by
  cases x <;> simp [hashed, Except.toOption]

/-- Without a repeated id the inspected and the hashed root are one node. -/
theorem single_node_inspected_is_hashed :
    ∃ r hash, inspect (fun _ => some (preparedNodes [requestNode])) []
        (.requestUserService "alice") = .ok r ∧
      computeHash Sha256.hash (fun _ => some (preparedNodes [requestNode])) [] "V2" = .ok hash ∧
      ∃ (p : PreparedTransaction) (tx : DamlTransaction) (rootId : String) (n n' : Node),
        p.transaction = some tx ∧ HashedRoot Sha256.hash p tx "V2" hash rootId n' ∧
        (n = n' ↔ tx.nodes.find? (·.nodeId == rootId) =
          tx.nodes.reverse.find? (·.nodeId == rootId)) := by
  have accepted : accepts (inspect (fun _ => some (preparedNodes [requestNode])) []
      (.requestUserService "alice")) = true := by decide +kernel
  have computed : hashed (computeHash Sha256.hash (fun _ => some (preparedNodes [requestNode])) []
      "V2") = true := by decide +kernel
  obtain ⟨r, hr, hacc⟩ := accepts_iff.mp accepted
  obtain ⟨hash, hhash, hne⟩ := hashed_iff.mp computed
  obtain ⟨p, tx, rootId, n, n', -, htx, -, hn', heq⟩ :=
    inspectedRoot_eq_hashedRoot_iff rfl hr hacc hhash hne
  exact ⟨r, hash, hr, hhash, p, tx, rootId, n, n', htx, hn', heq⟩

/-- The first of two nodes with the root id is inspected and accepted, and the
second one is hashed. -/
theorem repeated_root_inspected_not_hashed :
    ∃ r hash tx, inspect (fun _ => some (preparedNodes [requestNode, otherNode])) []
        (.requestUserService "alice") = .ok r ∧ r.accepted = true ∧
      computeHash Sha256.hash (fun _ => some (preparedNodes [requestNode, otherNode])) [] "V2" =
        .ok hash ∧ hash ≠ sentinel ∧
      (preparedNodes [requestNode, otherNode]).transaction = some tx ∧
      ¬ ∃ checked n, requestedCreate (.requestUserService "alice") = some checked ∧
        InspectedRoot checked tx "0" n ∧
        HashedRoot Sha256.hash (preparedNodes [requestNode, otherNode]) tx "V2" hash "0" n := by
  have accepted : accepts (inspect (fun _ => some (preparedNodes [requestNode, otherNode])) []
      (.requestUserService "alice")) = true := by decide +kernel
  have computed : hashed (computeHash Sha256.hash
      (fun _ => some (preparedNodes [requestNode, otherNode])) [] "V2") = true := by
    decide +kernel
  obtain ⟨r, hr, hacc⟩ := accepts_iff.mp accepted
  obtain ⟨hash, hhash, hne⟩ := hashed_iff.mp computed
  refine ⟨r, hash, _, hr, hacc, hhash, hne, rfl, ?_⟩
  rintro ⟨checked, n, -, ⟨-, hfirst, -⟩, hlast, -⟩
  rw [lookup_buildNodesDict] at hlast
  have first : n = requestNode := (Option.some.inj hfirst).symm
  have last : n = otherNode := (Option.some.inj hlast).symm
  have names := congrArg (fun m => (asCreate m).bind (·.templateId)) (first.symm.trans last)
  exact absurd names (by decide)

end RepeatedId

end BookAgent.TxVerifier
