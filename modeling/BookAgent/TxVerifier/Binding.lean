import BookAgent.TxVerifier.UniqueReading

/-!
# What the final hash binds

Two prepared transactions with one final hash commit to the same content,
provided the hash function does not collide on what the two computations feed
it, the lengths inside fit, and the seeds that are read all have one length.
The last proviso is not an artefact: a seed is raw bytes without a length.
-/

namespace BookAgent.TxVerifier

open BookAgent.Lib

/-! ## Sizes -/

section Sizes

variable [Hex]

/-- Node preimages other than a rollback's start with the length of this
string, whose top byte must not read as the rollback tag. -/
def FitsLfVersion (s : String) : Prop := FitsStr s ∧ (utf8 s).length / 2 ^ 24 ≠ 3

structure Create.Fits (c : Create) : Prop where
  lfVersion : FitsLfVersion c.lfVersion
  contractId : FitsHex c.contractId
  packageName : FitsStr c.packageName
  templateId : ∀ id, c.templateId = some id → id.Fits
  argument : ∀ v, c.argument = some v → v.Fits
  signatories : FitsStrs c.signatories
  stakeholders : FitsStrs c.stakeholders

structure Exercise.Fits (e : Exercise) : Prop where
  lfVersion : FitsLfVersion e.lfVersion
  contractId : FitsHex e.contractId
  packageName : FitsStr e.packageName
  templateId : ∀ id, e.templateId = some id → id.Fits
  signatories : FitsStrs e.signatories
  stakeholders : FitsStrs e.stakeholders
  actingParties : FitsStrs e.actingParties
  interfaceId : ∀ id, e.interfaceId = some id → id.Fits
  choiceId : FitsStr e.choiceId
  chosenValue : ∀ v, e.chosenValue = some v → v.Fits
  exerciseResult : ∀ v, e.exerciseResult = some v → v.Fits
  choiceObservers : FitsStrs e.choiceObservers
  children : FitsLen e.children.length

structure Fetch.Fits (f : Fetch) : Prop where
  lfVersion : FitsLfVersion f.lfVersion
  contractId : FitsHex f.contractId
  packageName : FitsStr f.packageName
  templateId : ∀ id, f.templateId = some id → id.Fits
  signatories : FitsStrs f.signatories
  stakeholders : FitsStrs f.stakeholders
  interfaceId : ∀ id, f.interfaceId = some id → id.Fits
  actingParties : FitsStrs f.actingParties

def NodeType.Fits : NodeType → Prop
  | .create c => c.Fits
  | .exercise e => e.Fits
  | .fetch f => f.Fits
  | .rollback r => FitsLen r.children.length

def Node.Fits (n : Node) : Prop := ∀ t, getNodeType n = some t → t.Fits

structure Metadata.Fits (m : Metadata) : Prop where
  actAs : ∀ s, m.submitterInfo = some s → FitsStrs s.actAs
  commandId : ∀ s, m.submitterInfo = some s → FitsStr s.commandId
  transactionUuid : FitsStr m.transactionUuid
  synchronizerId : FitsStr m.synchronizerId
  inputContracts : FitsLen m.inputContracts.length
  contract : ∀ ic ∈ m.inputContracts, ∀ c, ic.contract = some c → c.Fits

/-- Every length the hash of `p` writes down fits. -/
structure PreparedTransaction.Fits (p : PreparedTransaction) : Prop where
  version : ∀ tx, p.transaction = some tx → FitsStr tx.version
  roots : ∀ tx, p.transaction = some tx → FitsLen tx.roots.length
  nodes : ∀ tx, p.transaction = some tx →
    ∀ n, Reaches (buildNodesDict tx) tx.roots n → n.Fits
  metadata : ∀ m, p.metadata = some m → m.Fits

/-- The seed the hash of a node reads. -/
def NodeWalk.seedOf (walk : NodeWalk) (n : Node) : Option Bytes :=
  match getNodeType n with
  | some (.create _) => walk.seeds.lookup n.nodeId
  | some (.exercise _) => walk.seeds.lookup n.nodeId
  | _ => none

/-- Every seed the hash of `p` reads has length `k`. -/
def SeedsOfLength (k : Nat) (p : PreparedTransaction) : Prop :=
  ∀ tx, p.transaction = some tx → ∀ n, Reaches (buildNodesDict tx) tx.roots n →
    ∀ seed, (nodeWalk tx).seedOf n = some seed → seed.length = k

end Sizes

/-! ## Preimages -/

section Preimages

variable [Hex] (sha256 : Bytes → Digest)

/-- The five kinds of byte strings one computation hashes. -/
inductive Layer where
  | node
  | inputContract
  | transaction
  | metadata
  | final

/-- What `encode_node_ids` hashes below a list of ids. -/
def NodePreimage (walk : NodeWalk) (ids : List String) (acc : Bytes) : Prop :=
  ∃ n left seen seen', Reaches walk.nodes ids n ∧
    nodeBytes (encodeNodeIds sha256 walk left) walk n seen = .ok (acc, seen')

/-- What `compute_final_hash` hashes for `p`, layer by layer. -/
inductive Hashed (p : PreparedTransaction) (hashingSchemeVersion : String) :
    Layer → Bytes → Prop
  | node {tx : DamlTransaction} {acc : Bytes} : p.transaction = some tx →
    NodePreimage sha256 (nodeWalk tx) tx.roots acc → Hashed p hashingSchemeVersion .node acc
  | inputContract {m : Metadata} {ic : InputContract} {c : Create} {acc : Bytes} :
    p.metadata = some m → ic ∈ m.inputContracts → ic.contract = some c →
    inputContractBytes c = .ok acc → Hashed p hashingSchemeVersion .inputContract acc
  | transaction {tx : DamlTransaction} {acc : Bytes} : p.transaction = some tx →
    transactionBytes sha256 tx = .ok acc → Hashed p hashingSchemeVersion .transaction acc
  | metadata {m : Metadata} {acc : Bytes} : p.metadata = some m →
    metadataBytes sha256 m (parseHashingVersion hashingSchemeVersion) = .ok acc →
    Hashed p hashingSchemeVersion .metadata acc
  | final {tx : DamlTransaction} {m : Metadata} {txHash metaHash : Digest} :
    p.transaction = some tx → p.metadata = some m →
    hashTransaction sha256 tx = .ok txHash →
    hashMetadata sha256 m (parseHashingVersion hashingSchemeVersion) = .ok metaHash →
    Hashed p hashingSchemeVersion .final (finalBytes txHash metaHash)

/-- The hash function keeps the members of `A` apart from those of `B`. -/
def NoCollision (A B : Bytes → Prop) : Prop :=
  ∀ a b, A a → B b → sha256 a = sha256 b → a = b

/-- No collision between what two computations hash on one layer. -/
def CollisionFree (p q : PreparedTransaction) (hashingSchemeVersion : String) : Prop :=
  ∀ layer, NoCollision sha256 (Hashed sha256 p hashingSchemeVersion layer)
    (Hashed sha256 q hashingSchemeVersion layer)

variable {sha256}

omit [Hex] in
theorem NoCollision.mono {A B A' B' : Bytes → Prop} (h : NoCollision sha256 A B)
    (hA : ∀ a, A' a → A a) (hB : ∀ b, B' b → B b) : NoCollision sha256 A' B' :=
  fun a b ha hb => h a b (hA a ha) (hB b hb)

theorem NodePreimage.child {walk : NodeWalk} {ids : List String} {id : String} {n : Node}
    (hid : id ∈ ids) (hn : walk.nodes.lookup id = some n) {acc : Bytes}
    (h : NodePreimage sha256 walk n.childIds acc) : NodePreimage sha256 walk ids acc := by
  obtain ⟨m, left, seen, seen', hm, hacc⟩ := h
  exact ⟨m, left, seen, seen', .child hid hn hm, hacc⟩

end Preimages

/-! ## Nodes without children -/

section Leaves

variable [Hex]

theorem encodeCreateNode_eq_ok {c : Create} {seed : Option Bytes} {b : Bytes} :
    encodeCreateNode c seed = .ok b ↔ ∃ cid, hexBytes c.contractId = .ok cid ∧
      ∃ tid, c.templateId = some tid ∧ ∃ arg, c.argument = some arg ∧
      ∃ argument, encodeValue arg = .ok argument ∧
      strVal c.lfVersion ++ (createTag :: (optionalVal id seed ++ (cid ++
        (strVal c.packageName ++ (encodeIdentifier tid ++ (argument ++
        (stringSet c.signatories ++ stringSet c.stakeholders))))))) = b := by
  simp only [encodeCreateNode, bind_eq_ok, context_eq_ok, pure_eq_ok]

theorem encodeFetchNode_eq_ok {f : Fetch} {b : Bytes} :
    encodeFetchNode f = .ok b ↔ ∃ cid, hexBytes f.contractId = .ok cid ∧
      ∃ tid, f.templateId = some tid ∧
      strVal f.lfVersion ++ (fetchTag :: (cid ++ (strVal f.packageName ++
        (encodeIdentifier tid ++ (stringSet f.signatories ++ (stringSet f.stakeholders ++
        (encodeOptionalIdentifier f.interfaceId ++ stringSet f.actingParties))))))) = b := by
  simp only [encodeFetchNode, bind_eq_ok, context_eq_ok, pure_eq_ok]

theorem sameRead_encodeCreateNode {c d : Create} {s t : Option Bytes} {b e : Bytes}
    (hc : c.Fits) (hd : d.Fits)
    (hst : ∀ x y, s = some x → t = some y → x.length = y.length)
    (hb : encodeCreateNode c s = .ok b) (he : encodeCreateNode d t = .ok e) :
    SameRead b e (createContent c = createContent d ∧ s = t) := by
  obtain ⟨cid, hcid, tid, htid, arg, harg, argument, hargument, rfl⟩ :=
    encodeCreateNode_eq_ok.mp hb
  obtain ⟨cid', hcid', tid', htid', arg', harg', argument', hargument', rfl⟩ :=
    encodeCreateNode_eq_ok.mp he
  have seed : SameRead (optionalVal id s) (optionalVal id t) (s = t) :=
    sameRead_optionalVal fun x y hx hy => SameRead.of_length_eq (hst x y hx hy)
  refine ((sameRead_strVal hc.lfVersion.1 hd.lfVersion.1).append fun _ =>
    SameRead.cons fun _ => seed.append fun _ =>
    (sameRead_hexBytes hc.contractId hd.contractId hcid hcid').append fun _ =>
    (sameRead_strVal hc.packageName hd.packageName).append fun _ =>
    (sameRead_encodeIdentifier (hc.templateId tid htid) (hd.templateId tid' htid')).append
      fun _ =>
    (sameRead_encodeValue (hc.argument arg harg) (hd.argument arg' harg') hargument
      hargument').append fun _ =>
    (sameRead_stringSet hc.signatories hd.signatories).append fun _ =>
    sameRead_stringSet hc.stakeholders hd.stakeholders).mono ?_
  rintro ⟨hlf, -, hseed, hcid, hpkg, htmpl, harg₀, hsig, hstk⟩
  refine ⟨?_, hseed⟩
  simp only [createContent, hlf, hcid, hpkg, htid, htid', htmpl, harg, harg', harg₀, hsig, hstk,
    Option.bind_some]

theorem sameRead_encodeFetchNode {f g : Fetch} {b e : Bytes} (hf : f.Fits) (hg : g.Fits)
    (hb : encodeFetchNode f = .ok b) (he : encodeFetchNode g = .ok e) :
    SameRead b e (fetchContent f = fetchContent g) := by
  obtain ⟨cid, hcid, tid, htid, rfl⟩ := encodeFetchNode_eq_ok.mp hb
  obtain ⟨cid', hcid', tid', htid', rfl⟩ := encodeFetchNode_eq_ok.mp he
  refine ((sameRead_strVal hf.lfVersion.1 hg.lfVersion.1).append fun _ =>
    SameRead.cons fun _ =>
    (sameRead_hexBytes hf.contractId hg.contractId hcid hcid').append fun _ =>
    (sameRead_strVal hf.packageName hg.packageName).append fun _ =>
    (sameRead_encodeIdentifier (hf.templateId tid htid) (hg.templateId tid' htid')).append
      fun _ =>
    (sameRead_stringSet hf.signatories hg.signatories).append fun _ =>
    (sameRead_stringSet hf.stakeholders hg.stakeholders).append fun _ =>
    (sameRead_encodeOptionalIdentifier hf.interfaceId hg.interfaceId).append fun _ =>
    sameRead_stringSet hf.actingParties hg.actingParties).mono ?_
  rintro ⟨hlf, -, hcid, hpkg, htmpl, hsig, hstk, hiid, hact⟩
  simp only [fetchContent, hlf, hcid, hpkg, htid, htid', htmpl, hsig, hstk, hiid, hact]

end Leaves

/-! ## The forest -/

section Forest

variable [Hex]

variable {sha256 : Bytes → Digest}
  {enc enc' : List String → List String → Except String (Bytes × List String)}
  {forest forest' : List String → Option (List NodeTree)}
  {walk walk' : NodeWalk} {seen seen' seen₂ seen₂' : List String} {b c : Bytes}

theorem encodeResult_head {o : Option Value} {b : Bytes} (h : encodeResult o = .ok b) :
    (o = none ∧ b = [0x00]) ∨
      ∃ v d, o = some v ∧ encodeValue v = .ok d ∧ b = 0x01 :: d := by
  cases o with
  | none => exact .inl ⟨rfl, by cases h; rfl⟩
  | some v =>
    obtain ⟨d, hd, rfl⟩ := map_eq_ok.mp h
    exact .inr ⟨v, d, rfl, hd, rfl⟩

theorem sameRead_encodeResult {o p : Option Value} (ho : ∀ v, o = some v → v.Fits)
    (hp : ∀ v, p = some v → v.Fits) (hb : encodeResult o = .ok b) (hc : encodeResult p = .ok c) :
    SameRead b c (resultContent o = resultContent p) := by
  obtain ⟨rfl, rfl⟩ | ⟨v, d, rfl, hd, rfl⟩ := encodeResult_head hb
  · obtain ⟨rfl, rfl⟩ | ⟨w, e, rfl, -, rfl⟩ := encodeResult_head hc
    · exact (SameRead.of_length_eq rfl).mono fun _ => rfl
    · exact SameRead.of_head_ne (by decide)
  · obtain ⟨rfl, rfl⟩ | ⟨w, e, rfl, he, rfl⟩ := encodeResult_head hc
    · exact SameRead.of_head_ne (by decide)
    · refine (SameRead.cons fun _ =>
        sameRead_encodeValue (ho v rfl) (hp w rfl) hd he).mono fun h => ?_
      rw [resultContent, resultContent, h.2]

theorem encodeExerciseNode_eq_ok {e : Exercise} {nodeId : String} :
    encodeExerciseNode enc e nodeId walk seen = .ok (b, seen') ↔
      ∃ seed, walk.seeds.lookup nodeId = some seed ∧ ∃ cid, hexBytes e.contractId = .ok cid ∧
      ∃ tid, e.templateId = some tid ∧ ∃ chosen, e.chosenValue = some chosen ∧
      ∃ chosenValue, encodeValue chosen = .ok chosenValue ∧
      ∃ result, encodeResult e.exerciseResult = .ok result ∧
      ∃ children, enc e.children seen = .ok (children, seen') ∧
      strVal e.lfVersion ++ (exerciseTag :: (seed ++ (cid ++ (strVal e.packageName ++
        (encodeIdentifier tid ++ (stringSet e.signatories ++ (stringSet e.stakeholders ++
        (stringSet e.actingParties ++ (encodeOptionalIdentifier e.interfaceId ++
        (strVal e.choiceId ++ (chosenValue ++ (boolVal e.consuming ++ (result ++
        (stringSet e.choiceObservers ++ children)))))))))))))) = b := by
  simp only [encodeExerciseNode, bind_eq_ok, context_eq_ok, pure_eq_ok, Prod.exists,
    Prod.mk.injEq]
  constructor
  · rintro ⟨seed, hseed, cid, hcid, tid, htid, v, hv, cv, hcv, r, hr, ch, sn, hch, hb, rfl⟩
    exact ⟨seed, hseed, cid, hcid, tid, htid, v, hv, cv, hcv, r, hr, ch, hch, hb⟩
  · rintro ⟨seed, hseed, cid, hcid, tid, htid, v, hv, cv, hcv, r, hr, ch, hch, hb⟩
    exact ⟨seed, hseed, cid, hcid, tid, htid, v, hv, cv, hcv, r, hr, ch, seen', hch, hb, rfl⟩

/-- Exercises read alike when their seeds are of one length and the forests
below them do. -/
theorem sameRead_encodeExerciseNode {e f : Exercise} {id id' : String} (he : e.Fits)
    (hf : f.Fits)
    (hseed : ∀ s t, walk.seeds.lookup id = some s → walk'.seeds.lookup id' = some t →
      s.length = t.length)
    (hchildren : ∀ {d d' s s'}, enc e.children seen = .ok (d, s) →
      enc' f.children seen' = .ok (d', s') →
      SameRead d d' (forest e.children = forest' f.children))
    (hb : encodeExerciseNode enc e id walk seen = .ok (b, seen₂))
    (hc : encodeExerciseNode enc' f id' walk' seen' = .ok (c, seen₂')) :
    SameRead b c (walk.seeds.lookup id = walk'.seeds.lookup id' ∧
      exerciseContent e = exerciseContent f ∧ forest e.children = forest' f.children) := by
  obtain ⟨sd, hsd, cid, hcid, tid, htid, v, hv, cv, hcv, r, hr, ch, hch, rfl⟩ :=
    encodeExerciseNode_eq_ok.mp hb
  obtain ⟨sd', hsd', cid', hcid', tid', htid', v', hv', cv', hcv', r', hr', ch', hch', rfl⟩ :=
    encodeExerciseNode_eq_ok.mp hc
  refine ((sameRead_strVal he.lfVersion.1 hf.lfVersion.1).append fun _ =>
    SameRead.cons fun _ =>
    (SameRead.of_length_eq (hseed sd sd' hsd hsd')).append fun _ =>
    (sameRead_hexBytes he.contractId hf.contractId hcid hcid').append fun _ =>
    (sameRead_strVal he.packageName hf.packageName).append fun _ =>
    (sameRead_encodeIdentifier (he.templateId tid htid) (hf.templateId tid' htid')).append
      fun _ =>
    (sameRead_stringSet he.signatories hf.signatories).append fun _ =>
    (sameRead_stringSet he.stakeholders hf.stakeholders).append fun _ =>
    (sameRead_stringSet he.actingParties hf.actingParties).append fun _ =>
    (sameRead_encodeOptionalIdentifier he.interfaceId hf.interfaceId).append fun _ =>
    (sameRead_strVal he.choiceId hf.choiceId).append fun _ =>
    (sameRead_encodeValue (he.chosenValue v hv) (hf.chosenValue v' hv') hcv hcv').append
      fun _ =>
    (sameRead_boolVal e.consuming f.consuming).append fun _ =>
    (sameRead_encodeResult he.exerciseResult hf.exerciseResult hr hr').append fun _ =>
    (sameRead_stringSet he.choiceObservers hf.choiceObservers).append fun _ =>
    hchildren hch hch').mono ?_
  rintro ⟨hlf, -, hsds, hcid, hpkg, htmpl, hsig, hstk, hact, hiid, hcho, hval, hcons, hres,
    hobs, hforest⟩
  refine ⟨by rw [hsd, hsd', hsds], ?_, hforest⟩
  simp only [exerciseContent, hlf, hcid, hpkg, htid, htid', htmpl, hsig, hstk, hact, hiid, hcho,
    hv, hv', hval, hcons, hres, hobs, Option.bind_some]

/-- What the encoding of a node consists of, by its kind. -/
theorem nodeBytes_cases {n : Node} {acc : Bytes}
    (h : nodeBytes enc walk n seen = .ok (acc, seen')) :
    ∃ body, acc = nodeEncodingV1 :: body ∧
      ((∃ c, getNodeType n = some (.create c) ∧
          encodeCreateNode c (walk.seeds.lookup n.nodeId) = .ok body) ∨
        (∃ e, getNodeType n = some (.exercise e) ∧
          encodeExerciseNode enc e n.nodeId walk seen = .ok (body, seen')) ∨
        (∃ f, getNodeType n = some (.fetch f) ∧ encodeFetchNode f = .ok body) ∨
        ∃ r children, getNodeType n = some (.rollback r) ∧
          enc r.children seen = .ok (children, seen') ∧ body = rollbackTag :: children) := by
  obtain ⟨v, hv, h⟩ := bind_eq_ok.mp h
  obtain ⟨t, ht, h⟩ := bind_eq_ok.mp h
  have kind : getNodeType n = some t := by
    rw [getNodeType, context_eq_ok.mp hv, Option.bind_some, context_eq_ok.mp ht]
  obtain ⟨⟨body, s⟩, hbody, h⟩ := bind_eq_ok.mp h
  obtain ⟨rfl, rfl⟩ := Prod.mk.inj (pure_eq_ok.mp h)
  refine ⟨body, rfl, ?_⟩
  cases t with
  | create c =>
    obtain ⟨d, hd, hs⟩ := map_eq_ok.mp hbody
    obtain ⟨rfl, rfl⟩ := Prod.mk.inj hs
    exact .inl ⟨c, kind, hd⟩
  | exercise e => exact .inr (.inl ⟨e, kind, hbody⟩)
  | fetch f =>
    obtain ⟨d, hd, hs⟩ := map_eq_ok.mp hbody
    obtain ⟨rfl, rfl⟩ := Prod.mk.inj hs
    exact .inr (.inr (.inl ⟨f, kind, hd⟩))
  | rollback r =>
    obtain ⟨⟨d, s'⟩, hd, hs⟩ := bind_eq_ok.mp hbody
    obtain ⟨rfl, rfl⟩ := Prod.mk.inj (pure_eq_ok.mp hs)
    exact .inr (.inr (.inr ⟨r, d, kind, hd, rfl⟩))

/-- How the encoding of a kind starts after the node encoding version. -/
def Opens (tag : UInt8) (body : Bytes) : Prop :=
  (tag = rollbackTag ∧ ∃ rest, body = rollbackTag :: rest) ∨
    ∃ lf rest, FitsLfVersion lf ∧ body = strVal lf ++ (tag :: rest)

omit [Hex] in
theorem FitsLfVersion.head_ne {s : String} (h : FitsLfVersion s) :
    ∃ x rest, strVal s = x :: rest ∧ x ≠ rollbackTag := by
  refine ⟨UInt8.ofNat ((utf8 s).length / 256 ^ 3), beBytes 3 (utf8 s).length ++ utf8 s, ?_,
    fun e => h.2 ?_⟩
  · rw [strVal, i32Val_lenAsI32, Nat.mod_eq_of_lt h.1.lt, beBytes, List.cons_append]
  · have top := congrArg UInt8.toNat e
    have small : (utf8 s).length / 256 ^ 3 < 256 := by
      have := h.1.lt
      omega
    rw [UInt8.toNat_ofNat', Nat.mod_eq_of_lt small] at top
    exact top

omit [Hex] in
theorem Opens.sameRead_of_ne {x y : UInt8} {P : Prop} (hb : Opens x b) (hc : Opens y c)
    (hxy : x ≠ y) : SameRead b c P := by
  obtain ⟨hx, rest, rfl⟩ | ⟨lf, rest, hlf, rfl⟩ := hb <;>
    obtain ⟨hy, rest', rfl⟩ | ⟨lf', rest', hlf', rfl⟩ := hc
  · exact absurd (hx.trans hy.symm) hxy
  · obtain ⟨z, r, hz, hne⟩ := hlf'.head_ne
    rw [hz]
    exact SameRead.of_head_ne hne.symm
  · obtain ⟨z, r, hz, hne⟩ := hlf.head_ne
    rw [hz]
    exact SameRead.of_head_ne hne
  · exact ((sameRead_strVal hlf.1 hlf'.1).append fun _ =>
      SameRead.of_head_ne hxy).mono And.right

theorem opens_create {c : Create} {seed : Option Bytes} (hc : c.Fits)
    (h : encodeCreateNode c seed = .ok b) : Opens createTag b := by
  obtain ⟨_, _, _, _, _, _, _, _, rfl⟩ := encodeCreateNode_eq_ok.mp h
  exact .inr ⟨_, _, hc.lfVersion, rfl⟩

theorem opens_exercise {e : Exercise} {id : String} (he : e.Fits)
    (h : encodeExerciseNode enc e id walk seen = .ok (b, seen')) : Opens exerciseTag b := by
  obtain ⟨_, _, _, _, _, _, _, _, _, _, _, _, _, _, rfl⟩ := encodeExerciseNode_eq_ok.mp h
  exact .inr ⟨_, _, he.lfVersion, rfl⟩

theorem opens_fetch {f : Fetch} (hf : f.Fits) (h : encodeFetchNode f = .ok b) :
    Opens fetchTag b := by
  obtain ⟨_, _, _, _, rfl⟩ := encodeFetchNode_eq_ok.mp h
  exact .inr ⟨_, _, hf.lfVersion, rfl⟩

omit [Hex] in
theorem opens_rollback (children : Bytes) : Opens rollbackTag (rollbackTag :: children) :=
  .inl ⟨rfl, children, rfl⟩

omit [Hex] in
theorem Node.childIds_exercise {n : Node} {e : Exercise}
    (h : getNodeType n = some (.exercise e)) : n.childIds = e.children := by
  rw [Node.childIds, h]

omit [Hex] in
theorem Node.childIds_rollback {n : Node} {r : Rollback}
    (h : getNodeType n = some (.rollback r)) : n.childIds = r.children := by
  rw [Node.childIds, h]

/-- Nodes read alike when the forests below them do. -/
theorem sameRead_nodeBytes {n m : Node} (hn : n.Fits) (hm : m.Fits)
    (hseed : ∀ s t, walk.seedOf n = some s → walk'.seedOf m = some t → s.length = t.length)
    (hchildren : ∀ {d d' s s'}, enc n.childIds seen = .ok (d, s) →
      enc' m.childIds seen' = .ok (d', s') →
      SameRead d d' (forest n.childIds = forest' m.childIds))
    (hb : nodeBytes enc walk n seen = .ok (b, seen₂))
    (hc : nodeBytes enc' walk' m seen' = .ok (c, seen₂')) :
    SameRead b c (nodeTree forest walk n = nodeTree forest' walk' m) := by
  obtain ⟨b, rfl, kind⟩ := nodeBytes_cases hb
  obtain ⟨c, rfl, kind'⟩ := nodeBytes_cases hc
  refine (SameRead.cons fun _ => ?_).mono And.right
  rcases kind with ⟨x, kx, hx⟩ | ⟨x, kx, hx⟩ | ⟨x, kx, hx⟩ | ⟨x, dx, kx, hx, rfl⟩ <;>
    rcases kind' with ⟨y, ky, hy⟩ | ⟨y, ky, hy⟩ | ⟨y, ky, hy⟩ | ⟨y, dy, ky, hy, rfl⟩
  · have seeds : ∀ s t, walk.seeds.lookup n.nodeId = some s →
        walk'.seeds.lookup m.nodeId = some t → s.length = t.length := by
      simpa only [NodeWalk.seedOf, kx, ky] using hseed
    refine (sameRead_encodeCreateNode (hn _ kx) (hm _ ky) seeds hx hy).mono fun h => ?_
    simp only [nodeTree, kx, ky, h.1, h.2]
  · exact (opens_create (hn _ kx) hx).sameRead_of_ne (opens_exercise (hm _ ky) hy) (by decide)
  · exact (opens_create (hn _ kx) hx).sameRead_of_ne (opens_fetch (hm _ ky) hy) (by decide)
  · exact (opens_create (hn _ kx) hx).sameRead_of_ne (opens_rollback dy) (by decide)
  · exact (opens_exercise (hn _ kx) hx).sameRead_of_ne (opens_create (hm _ ky) hy) (by decide)
  · have seeds : ∀ s t, walk.seeds.lookup n.nodeId = some s →
        walk'.seeds.lookup m.nodeId = some t → s.length = t.length := by
      simpa only [NodeWalk.seedOf, kx, ky] using hseed
    rw [Node.childIds_exercise kx, Node.childIds_exercise ky] at hchildren
    refine (sameRead_encodeExerciseNode (hn _ kx) (hm _ ky) seeds hchildren hx hy).mono
      fun h => ?_
    simp only [nodeTree, kx, ky, h.1, h.2.1, h.2.2]
  · exact (opens_exercise (hn _ kx) hx).sameRead_of_ne (opens_fetch (hm _ ky) hy) (by decide)
  · exact (opens_exercise (hn _ kx) hx).sameRead_of_ne (opens_rollback dy) (by decide)
  · exact (opens_fetch (hn _ kx) hx).sameRead_of_ne (opens_create (hm _ ky) hy) (by decide)
  · exact (opens_fetch (hn _ kx) hx).sameRead_of_ne (opens_exercise (hm _ ky) hy) (by decide)
  · refine (sameRead_encodeFetchNode (hn _ kx) (hm _ ky) hx hy).mono fun h => ?_
    simp only [nodeTree, kx, ky, h]
  · exact (opens_fetch (hn _ kx) hx).sameRead_of_ne (opens_rollback dy) (by decide)
  · exact (opens_rollback dx).sameRead_of_ne (opens_create (hm _ ky) hy) (by decide)
  · exact (opens_rollback dx).sameRead_of_ne (opens_exercise (hm _ ky) hy) (by decide)
  · exact (opens_rollback dx).sameRead_of_ne (opens_fetch (hm _ ky) hy) (by decide)
  · rw [Node.childIds_rollback kx, Node.childIds_rollback ky] at hchildren
    refine (SameRead.cons fun _ => hchildren hx hy).mono fun h => ?_
    simp only [nodeTree, kx, ky, h.2]

/-- What the loop over ids appends: one digest per id, of the bytes of the node
found under it. -/
theorem hashEach_eq_ok {ids : List String}
    (h : hashEach sha256 enc walk ids seen = .ok (b, seen')) :
    ∃ ds, b = ds.flatten ∧ List.Forall₂ (fun id d => ∃ n acc s s',
      walk.nodes.lookup id = some n ∧ nodeBytes enc walk n s = .ok (acc, s') ∧
        d = (sha256 acc).val) ids ds := by
  induction ids generalizing seen b with
  | nil =>
    cases h
    exact ⟨[], rfl, .nil⟩
  | cons id ids ih =>
    unfold hashEach at h
    split at h
    · cases h
    · obtain ⟨n, hn, h⟩ := bind_eq_ok.mp h
      obtain ⟨⟨x, s⟩, hx, h⟩ := bind_eq_ok.mp h
      obtain ⟨⟨acc, s'⟩, hacc, hxs⟩ := bind_eq_ok.mp hx
      obtain ⟨rfl, rfl⟩ := Prod.mk.inj (pure_eq_ok.mp hxs)
      obtain ⟨⟨xs, s''⟩, hrest, h⟩ := bind_eq_ok.mp h
      obtain ⟨rfl, rfl⟩ := Prod.mk.inj (pure_eq_ok.mp h)
      obtain ⟨ds, rfl, hds⟩ := ih hrest
      exact ⟨_ :: ds, rfl, .cons ⟨n, acc, _, _, context_eq_ok.mp hn, hacc, rfl⟩ hds⟩

/-- The nodes below `ids` fit, and their seeds have length `k`. -/
def WalkFits (k : Nat) (walk : NodeWalk) (ids : List String) : Prop :=
  ∀ n, Reaches walk.nodes ids n → n.Fits ∧ ∀ seed, walk.seedOf n = some seed → seed.length = k

theorem WalkFits.child {k : Nat} {ids : List String} {id : String} {n : Node}
    (h : WalkFits k walk ids) (hid : id ∈ ids) (hn : walk.nodes.lookup id = some n) :
    WalkFits k walk n.childIds :=
  fun m hm => h m (.child hid hn hm)

theorem Node.Fits.childIds {n : Node} (h : n.Fits) : FitsLen n.childIds.length := by
  unfold Node.childIds
  split
  · next e he => exact (h _ he).children
  · next r hr => exact h _ hr
  · exact (by decide : (0 : Nat) + 1 < 2 ^ 32)

/-- **Forests read alike.** By induction on the levels still allowed: the count
and the digests are read off the stream, equal digests have equal preimages, and
equal preimages hold nodes that read alike by the hypothesis one level down. -/
theorem sameRead_encodeNodeIds {k left : Nat} {ids ids' : List String}
    (hw : WalkFits k walk ids) (hw' : WalkFits k walk' ids')
    (hlen : FitsLen ids.length) (hlen' : FitsLen ids'.length)
    (hsha : NoCollision sha256 (NodePreimage sha256 walk ids) (NodePreimage sha256 walk' ids'))
    (hb : encodeNodeIds sha256 walk left ids seen = .ok (b, seen₂))
    (hc : encodeNodeIds sha256 walk' left ids' seen' = .ok (c, seen₂')) :
    SameRead b c (forestAt walk left ids = forestAt walk' left ids') := by
  induction left generalizing ids ids' seen seen' b c seen₂ seen₂' with
  | zero =>
    unfold encodeNodeIds at hb hc
    split at hb
    · cases hb
    · split at hc
      · cases hc
      · next h h' =>
        obtain rfl := not_not.mp h
        obtain rfl := not_not.mp h'
        obtain ⟨rfl, rfl⟩ := Prod.mk.inj (Except.ok.inj hb)
        obtain ⟨rfl, rfl⟩ := Prod.mk.inj (Except.ok.inj hc)
        exact (SameRead.of_length_eq rfl).mono fun _ => rfl
  | succ left ih =>
    obtain ⟨⟨_, _⟩, each, e⟩ := bind_eq_ok.mp hb
    obtain ⟨rfl, rfl⟩ := Prod.mk.inj (pure_eq_ok.mp e)
    obtain ⟨ds, rfl, hds⟩ := hashEach_eq_ok each
    obtain ⟨⟨_, _⟩, each', e'⟩ := bind_eq_ok.mp hc
    obtain ⟨rfl, rfl⟩ := Prod.mk.inj (pure_eq_ok.mp e')
    obtain ⟨ds', rfl, hds'⟩ := hashEach_eq_ok each'
    refine (sameRead_counted (R := fun id id' =>
      (walk.nodes.lookup id).bind (nodeTree (forestAt walk left) walk) =
        (walk'.nodes.lookup id').bind (nodeTree (forestAt walk' left) walk'))
      hlen hlen' hds hds' ?_).mono mapM_eq_of_forall₂
    rintro id hid id' hid' d d' ⟨n, acc, s, s₂, hn, hacc, rfl⟩ ⟨m, acc', s', s₂', hm, hacc', rfl⟩
    refine (SameRead.of_length_eq
      ((sha256 acc).property.trans (sha256 acc').property.symm)).mono fun h => ?_
    obtain rfl : acc = acc' := hsha acc acc' ⟨n, left, s, s₂, .here hid hn, hacc⟩
      ⟨m, left, s', s₂', .here hid' hm, hacc'⟩ (Subtype.ext h)
    have fits := hw n (.here hid hn)
    have fits' := hw' m (.here hid' hm)
    have tree := sameRead_nodeBytes fits.1 fits'.1
      (fun x y hx hy => (fits.2 x hx).trans (fits'.2 y hy).symm)
      (fun hx hy => ih (hw.child hid hn) (hw'.child hid' hm) fits.1.childIds fits'.1.childIds
        (hsha.mono (fun _ => NodePreimage.child hid hn) fun _ => NodePreimage.child hid' hm)
        hx hy)
      hacc hacc'
    rw [hn, hm, Option.bind_some, Option.bind_some]
    exact tree.eq_nil rfl

end Forest

/-! ## The layers -/

section Layers

variable [Hex]

variable {sha256 : Bytes → Digest}

theorem transactionBytes_inj {k : Nat} {tx tx' : DamlTransaction} {acc : Bytes}
    (hv : FitsStr tx.version) (hv' : FitsStr tx'.version)
    (hlen : FitsLen tx.roots.length) (hlen' : FitsLen tx'.roots.length)
    (hw : WalkFits k (nodeWalk tx) tx.roots) (hw' : WalkFits k (nodeWalk tx') tx'.roots)
    (hsha : NoCollision sha256 (NodePreimage sha256 (nodeWalk tx) tx.roots)
      (NodePreimage sha256 (nodeWalk tx') tx'.roots))
    (h : transactionBytes sha256 tx = .ok acc) (h' : transactionBytes sha256 tx' = .ok acc) :
    tx.version = tx'.version ∧ forestAt (nodeWalk tx) maxNodeDepth tx.roots =
      forestAt (nodeWalk tx') maxNodeDepth tx'.roots := by
  obtain ⟨⟨roots, _⟩, hroots, h⟩ := bind_eq_ok.mp h
  obtain ⟨⟨roots', _⟩, hroots', h'⟩ := bind_eq_ok.mp h'
  have read := ((sameRead_strVal hv hv').append fun _ =>
    sameRead_encodeNodeIds hw hw' hlen hlen' hsha hroots hroots').append_self hashPurpose
  exact read.eq_nil ((pure_eq_ok.mp h).trans (pure_eq_ok.mp h').symm)

theorem encodeInputContract_eq_ok {ic : InputContract} {b : Bytes} :
    encodeInputContract sha256 ic = .ok b ↔ ∃ c, ic.contract = some c ∧
      ∃ acc, inputContractBytes c = .ok acc ∧ u64Val ic.createdAt ++ (sha256 acc).val = b := by
  simp only [encodeInputContract, bind_eq_ok, context_eq_ok, pure_eq_ok]

theorem inputContractBytes_inj {c d : Create} {acc : Bytes} (hc : c.Fits) (hd : d.Fits)
    (h : inputContractBytes c = .ok acc) (h' : inputContractBytes d = .ok acc) :
    createContent c = createContent d := by
  obtain ⟨b, hb, rfl⟩ := map_eq_ok.mp h
  obtain ⟨e, he, heq⟩ := map_eq_ok.mp h'
  obtain rfl := List.cons_injective heq
  exact ((sameRead_encodeCreateNode hc hd (by simp) hb he).eq_nil rfl).1

theorem metadataBytes_inj {m m' : Metadata} {isV3 : Bool} {acc : Bytes} (hm : m.Fits)
    (hm' : m'.Fits)
    (hsha : ∀ ic ∈ m.inputContracts, ∀ ic' ∈ m'.inputContracts, ∀ c c' a a',
      ic.contract = some c → ic'.contract = some c' → inputContractBytes c = .ok a →
      inputContractBytes c' = .ok a' → sha256 a = sha256 a' → a = a')
    (h : metadataBytes sha256 m isV3 = .ok acc) (h' : metadataBytes sha256 m' isV3 = .ok acc) :
    metadataContent m isV3 = metadataContent m' isV3 := by
  obtain ⟨s, hs, h⟩ := bind_eq_ok.mp h
  obtain ⟨cs, hcs, h⟩ := bind_eq_ok.mp h
  obtain ⟨s', hs', h'⟩ := bind_eq_ok.mp h'
  obtain ⟨cs', hcs', h'⟩ := bind_eq_ok.mp h'
  rw [context_eq_ok] at hs hs'
  have contract : ∀ ic ∈ m.inputContracts, ∀ ic' ∈ m'.inputContracts, ∀ b c,
      encodeInputContract sha256 ic = .ok b → encodeInputContract sha256 ic' = .ok c →
      SameRead b c (inputContent ic = inputContent ic') := by
    intro ic hic ic' hic' b c hb hc
    obtain ⟨x, hx, a, ha, rfl⟩ := encodeInputContract_eq_ok.mp hb
    obtain ⟨y, hy, a', ha', rfl⟩ := encodeInputContract_eq_ok.mp hc
    refine ((sameRead_u64Val _ _).append fun _ => SameRead.of_length_eq
      ((sha256 a).property.trans (sha256 a').property.symm)).mono fun ⟨hat, hdig⟩ => ?_
    obtain rfl := hsha ic hic ic' hic' x y a a' hx hy ha ha' (Subtype.ext hdig)
    have content := inputContractBytes_inj (hm.contract ic hic x hx)
      (hm'.contract ic' hic' y hy) ha ha'
    rw [inputContent, inputContent, hx, hy, Option.bind_some, Option.bind_some, content, hat]
  have v3 : SameRead (if isV3 then optionalVal u64Val m.maxRecordTime else [])
      (if isV3 then optionalVal u64Val m'.maxRecordTime else [])
      (isV3 = true → m.maxRecordTime = m'.maxRecordTime) := by
    cases isV3 with
    | false => exact SameRead.nil.mono fun _ h => absurd h Bool.false_ne_true
    | true =>
      exact (sameRead_optionalVal fun a b _ _ => sameRead_u64Val a b).mono fun h _ => h
  have time : ∀ o p : Option UInt64, SameRead (optionalVal u64Val o) (optionalVal u64Val p)
      (o = p) := fun o p => sameRead_optionalVal fun a b _ _ => sameRead_u64Val a b
  have contracts := (sameRead_len hm.inputContracts.lt hm'.inputContracts.lt).append fun hlen =>
    SameRead.forall₂ contract (forall₂_of_mapM_ok hcs) (forall₂_of_mapM_ok hcs') hlen
  have read := ((sameRead_stringSet (hm.actAs s hs) (hm'.actAs s' hs')).append fun _ =>
    (sameRead_strVal (hm.commandId s hs) (hm'.commandId s' hs')).append fun _ =>
    (sameRead_strVal hm.transactionUuid hm'.transactionUuid).append fun _ =>
    (sameRead_u32Val m.mediatorGroup m'.mediatorGroup).append fun _ =>
    (sameRead_strVal hm.synchronizerId hm'.synchronizerId).append fun _ =>
    (time m.minLedgerEffectiveTime m'.minLedgerEffectiveTime).append fun _ =>
    (time m.maxLedgerEffectiveTime m'.maxLedgerEffectiveTime).append fun _ =>
    (sameRead_u64Val m.preparationTime m'.preparationTime).append fun _ =>
    contracts.append fun _ => v3).append_self (hashPurpose ++ [metadataEncodingV1])
  have eq := (pure_eq_ok.mp h).trans (pure_eq_ok.mp h').symm
  simp only [List.append_assoc, List.singleton_append] at read
  obtain ⟨hact, hcmd, huuid, hmed, hsync, hmin, hmax, hprep, ⟨-, hics⟩, hrec⟩ :=
    read.eq_nil eq
  have mapped : m.inputContracts.mapM inputContent = m'.inputContracts.mapM inputContent :=
    mapM_eq_of_forall₂ hics
  have recorded : (if isV3 then some m.maxRecordTime else none) =
      if isV3 then some m'.maxRecordTime else none := by
    split
    · next h => rw [hrec h]
    · rfl
  simp only [metadataContent, hs, hs', hact, hcmd, huuid, hmed, hsync, hmin, hmax, hprep, mapped,
    recorded, Option.bind_eq_bind, Option.bind_some]

omit [Hex] in
theorem finalBytes_inj {t t' m m' : Digest} (h : finalBytes t m = finalBytes t' m') :
    t = t' ∧ m = m' := by
  obtain ⟨-, h⟩ := List.append_inj h rfl
  obtain ⟨ht, hm⟩ := List.append_inj (List.cons_injective h) (t.property.trans t'.property.symm)
  exact ⟨Subtype.ext ht, Subtype.ext hm⟩

theorem computeFinalHash_eq_ok {p : PreparedTransaction} {v : String} {d : Digest} :
    computeFinalHash sha256 p v = .ok d ↔ ∃ tx, p.transaction = some tx ∧
      ∃ m, p.metadata = some m ∧ ∃ acc, transactionBytes sha256 tx = .ok acc ∧
      ∃ acc', metadataBytes sha256 m (parseHashingVersion v) = .ok acc' ∧
      sha256 (finalBytes (sha256 acc) (sha256 acc')) = d := by
  simp only [computeFinalHash, hashTransaction, hashMetadata, bind_eq_ok, context_eq_ok,
    pure_eq_ok]
  constructor
  · rintro ⟨tx, htx, m, hm, _, ⟨acc, hacc, rfl⟩, _, ⟨acc', hacc', rfl⟩, h⟩
    exact ⟨tx, htx, m, hm, acc, hacc, acc', hacc', h⟩
  · rintro ⟨tx, htx, m, hm, acc, hacc, acc', hacc', h⟩
    exact ⟨tx, htx, m, hm, _, ⟨acc, hacc, rfl⟩, _, ⟨acc', hacc', rfl⟩, h⟩

/-- **Hash binding for seeds of one length.** -/
theorem commitment_eq_of_computeFinalHash_eq {k : Nat} {p q : PreparedTransaction} {v : String}
    {d : Digest} (hp : p.Fits) (hq : q.Fits) (kp : SeedsOfLength k p) (kq : SeedsOfLength k q)
    (hsha : CollisionFree sha256 p q v) (h : computeFinalHash sha256 p v = .ok d)
    (h' : computeFinalHash sha256 q v = .ok d) : commitment p v = commitment q v := by
  obtain ⟨tx, htx, m, hm, acc, hacc, macc, hmacc, rfl⟩ := computeFinalHash_eq_ok.mp h
  obtain ⟨tx', htx', m', hm', acc', hacc', macc', hmacc', heq⟩ := computeFinalHash_eq_ok.mp h'
  have ofTx : ∀ {t a}, transactionBytes sha256 t = .ok a →
      hashTransaction sha256 t = .ok (sha256 a) := fun e => map_eq_ok.mpr ⟨_, e, rfl⟩
  have ofMeta : ∀ {t a}, metadataBytes sha256 t (parseHashingVersion v) = .ok a →
      hashMetadata sha256 t (parseHashingVersion v) = .ok (sha256 a) :=
    fun e => map_eq_ok.mpr ⟨_, e, rfl⟩
  -- from the top layer down, equal digests come from equal preimages
  have final := hsha .final _ _ (.final htx hm (ofTx hacc) (ofMeta hmacc))
    (.final htx' hm' (ofTx hacc') (ofMeta hmacc')) heq.symm
  obtain ⟨htxHash, hmetaHash⟩ := finalBytes_inj final
  obtain rfl := hsha .transaction _ _ (.transaction htx hacc) (.transaction htx' hacc') htxHash
  obtain rfl := hsha .metadata _ _ (.metadata hm hmacc) (.metadata hm' hmacc') hmetaHash
  obtain ⟨hversion, hforest⟩ := transactionBytes_inj (hp.version tx htx) (hq.version tx' htx')
    (hp.roots tx htx) (hq.roots tx' htx')
    (fun n hn => ⟨hp.nodes tx htx n hn, kp tx htx n hn⟩)
    (fun n hn => ⟨hq.nodes tx' htx' n hn, kq tx' htx' n hn⟩)
    ((hsha .node).mono (fun _ => .node htx) fun _ => .node htx') hacc hacc'
  have hmetadata := metadataBytes_inj (hp.metadata m hm) (hq.metadata m' hm')
    (fun ic hic ic' hic' c c' a a' hc hc' ha ha' => hsha .inputContract a a'
      (.inputContract hm hic hc ha) (.inputContract hm' hic' hc' ha')) hmacc hmacc'
  simp only [commitment, htx, htx', hm, hm', hversion, hforest, hmetadata, Option.bind_eq_bind,
    Option.bind_some]

end Layers

/-! ## A hash that is computed has a meaning -/

section Meaning

variable [Hex]

variable {sha256 : Bytes → Digest}
  {enc : List String → List String → Except String (Bytes × List String)}
  {forest : List String → Option (List NodeTree)} {walk : NodeWalk}
  {seen seen' : List String} {b : Bytes}

theorem isSome_createContent {c : Create} {seed : Option Bytes}
    (h : encodeCreateNode c seed = .ok b) : (createContent c).isSome := by
  obtain ⟨cid, hcid, tid, htid, arg, harg, argument, hargument, -⟩ := encodeCreateNode_eq_ok.mp h
  obtain ⟨d, hd, -⟩ := hexBytes_eq_ok.mp hcid
  obtain ⟨x, hx⟩ := Option.isSome_iff_exists.mp (isSome_lfValueAt hargument)
  simp [createContent, hd, htid, harg, show lfValue arg = some x from hx]

theorem isSome_resultContent {o : Option Value} (h : encodeResult o = .ok b) :
    (resultContent o).isSome := by
  obtain ⟨rfl, -⟩ | ⟨v, d, rfl, hd, -⟩ := encodeResult_head h
  · rfl
  · rw [resultContent, Option.isSome_map]
    exact isSome_lfValueAt hd

theorem isSome_nodeTree {n : Node}
    (hchildren : ∀ {d s}, enc n.childIds seen = .ok (d, s) → (forest n.childIds).isSome)
    (h : nodeBytes enc walk n seen = .ok (b, seen')) : (nodeTree forest walk n).isSome := by
  obtain ⟨_, -, ⟨c, kind, hc⟩ | ⟨e, kind, he⟩ | ⟨f, kind, hf⟩ | ⟨r, _, kind, hr, -⟩⟩ :=
    nodeBytes_cases h
  · simpa [nodeTree, kind] using isSome_createContent hc
  · obtain ⟨seed, hseed, cid, hcid, tid, htid, v, hv, _, hcv, _, hres, _, hch, -⟩ :=
      encodeExerciseNode_eq_ok.mp he
    rw [Node.childIds_exercise kind] at hchildren
    obtain ⟨d, hd, -⟩ := hexBytes_eq_ok.mp hcid
    obtain ⟨x, hx⟩ := Option.isSome_iff_exists.mp (isSome_lfValueAt hcv)
    obtain ⟨y, hy⟩ := Option.isSome_iff_exists.mp (isSome_resultContent hres)
    obtain ⟨z, hz⟩ := Option.isSome_iff_exists.mp (hchildren hch)
    simp [nodeTree, kind, hseed, exerciseContent, hd, htid, hv,
      show lfValue v = some x from hx, hy, hz]
  · obtain ⟨_, hcid, tid, htid, -⟩ := encodeFetchNode_eq_ok.mp hf
    obtain ⟨d, hd, -⟩ := hexBytes_eq_ok.mp hcid
    simp [nodeTree, kind, fetchContent, hd, htid]
  · rw [Node.childIds_rollback kind] at hchildren
    simpa [nodeTree, kind] using hchildren hr

theorem isSome_forestAt {left : Nat} {ids : List String}
    (h : encodeNodeIds sha256 walk left ids seen = .ok (b, seen')) :
    (forestAt walk left ids).isSome := by
  induction left generalizing ids seen b seen' with
  | zero =>
    unfold encodeNodeIds at h
    split at h
    · cases h
    · next hids => simp [forestAt, not_not.mp hids]
  | succ left ih =>
    obtain ⟨⟨_, _⟩, each, -⟩ := bind_eq_ok.mp h
    obtain ⟨ds, -, hds⟩ := hashEach_eq_ok each
    refine isSome_mapM fun id hid => ?_
    obtain ⟨_, -, n, _, _, _, hn, hacc, -⟩ := mem_of_forall₂_left hds hid
    rw [hn, Option.bind_some]
    exact isSome_nodeTree ih hacc

theorem isSome_metadataContent {m : Metadata} {isV3 : Bool}
    (h : metadataBytes sha256 m isV3 = .ok b) : (metadataContent m isV3).isSome := by
  obtain ⟨s, hs, h⟩ := bind_eq_ok.mp h
  obtain ⟨cs, hcs, -⟩ := bind_eq_ok.mp h
  have contracts : (m.inputContracts.mapM inputContent).isSome := by
    refine isSome_mapM fun ic hic => ?_
    obtain ⟨_, -, henc⟩ := mem_of_forall₂_left (forall₂_of_mapM_ok hcs) hic
    obtain ⟨c, hc, acc, hacc, -⟩ := encodeInputContract_eq_ok.mp henc
    obtain ⟨d, hd, -⟩ := map_eq_ok.mp hacc
    rw [inputContent, hc, Option.bind_some, Option.isSome_map]
    exact isSome_createContent hd
  obtain ⟨x, hx⟩ := Option.isSome_iff_exists.mp contracts
  simp [metadataContent, context_eq_ok.mp hs, hx]

/-- A transaction that hashes commits to something. -/
theorem isSome_commitment {p : PreparedTransaction} {v : String} {d : Digest}
    (h : computeFinalHash sha256 p v = .ok d) : (commitment p v).isSome := by
  obtain ⟨tx, htx, m, hm, acc, hacc, macc, hmacc, -⟩ := computeFinalHash_eq_ok.mp h
  obtain ⟨⟨_, _⟩, hroots, -⟩ := bind_eq_ok.mp hacc
  obtain ⟨x, hx⟩ := Option.isSome_iff_exists.mp (isSome_forestAt hroots)
  obtain ⟨y, hy⟩ := Option.isSome_iff_exists.mp (isSome_metadataContent hmacc)
  simp [commitment, htx, hm, hx, hy]

end Meaning

end BookAgent.TxVerifier
