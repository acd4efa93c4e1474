import Mathlib.Data.String.Basic
import Mathlib.Logic.Relation
import BookAgent.Lib.Numeral
import BookAgent.Lib.Sha256
import BookAgent.TxVerifier.NodeForest

/-!
# The hash ignores representation

One transaction has many messages: nodes, seeds and party lists in any order, node ids under any
names, and nodes and seeds that nothing below the roots refers to. The final hash is the same for
all of them. A renaming is followed through the walk by the ids it has seen.
-/

namespace BookAgent.TxVerifier

open BookAgent.Lib

/-! ## Other messages for one transaction -/

/-- The same Create with its party lists in another order. -/
inductive Create.Reordered (c : Create) : Create → Prop
  | parties {signatories stakeholders : List String} : signatories.Perm c.signatories →
    stakeholders.Perm c.stakeholders → Reordered c { c with signatories, stakeholders }

inductive Exercise.Reordered (e : Exercise) : Exercise → Prop
  | parties {signatories stakeholders actingParties choiceObservers : List String} :
    signatories.Perm e.signatories → stakeholders.Perm e.stakeholders →
    actingParties.Perm e.actingParties → choiceObservers.Perm e.choiceObservers →
    Reordered e { e with signatories, stakeholders, actingParties, choiceObservers }

inductive Fetch.Reordered (f : Fetch) : Fetch → Prop
  | parties {signatories stakeholders actingParties : List String} :
    signatories.Perm f.signatories → stakeholders.Perm f.stakeholders →
    actingParties.Perm f.actingParties →
    Reordered f { f with signatories, stakeholders, actingParties }

inductive NodeType.Reordered : NodeType → NodeType → Prop
  | create {c c' : Create} : c.Reordered c' → Reordered (.create c) (.create c')
  | exercise {e e' : Exercise} : e.Reordered e' → Reordered (.exercise e) (.exercise e')
  | fetch {f f' : Fetch} : f.Reordered f' → Reordered (.fetch f) (.fetch f')
  | rollback (r : Rollback) : Reordered (.rollback r) (.rollback r)

/-- The same node with its party lists in another order. -/
inductive Node.Reordered : Node → Node → Prop
  | same (n : Node) : Reordered n n
  | parties {nodeId : String} {t t' : NodeType} : t.Reordered t' →
    Reordered ⟨nodeId, some ⟨some t⟩⟩ ⟨nodeId, some ⟨some t'⟩⟩

/-- The same disclosed contract with its party lists in another order. -/
inductive InputContract.Reordered : InputContract → InputContract → Prop
  | same (ic : InputContract) : Reordered ic ic
  | parties {createdAt : UInt64} {c c' : Create} : c.Reordered c' →
    Reordered ⟨some c, createdAt⟩ ⟨some c', createdAt⟩

def NodeType.rename (ρ : String → String) : NodeType → NodeType
  | .exercise e => .exercise { e with children := e.children.map ρ }
  | .rollback r => .rollback { children := r.children.map ρ }
  | .create c => .create c
  | .fetch f => .fetch f

/-- The node under another id, with its children under theirs. -/
def Node.rename (ρ : String → String) (n : Node) : Node where
  nodeId := ρ n.nodeId
  versionedNode := n.versionedNode.map fun v => ⟨v.nodeType.map (NodeType.rename ρ)⟩

/-- The node id that a seed is for, as text. -/
def NodeSeed.idText (s : NodeSeed) : String := toString s.nodeId.toInt

/-- The same seed for another node id. -/
structure NodeSeed.Renamed (ρ : String → String) (s s' : NodeSeed) : Prop where
  idText : s'.idText = ρ s.idText
  seed : s'.seed = s.seed

namespace DamlTransaction

/-- Node ids and seed ids are distinct. -/
structure DistinctIds (tx : DamlTransaction) : Prop where
  nodes : (tx.nodes.map Node.nodeId).Nodup
  seeds : (tx.nodeSeeds.map NodeSeed.nodeId).Nodup

/-- Every id that the transaction mentions. -/
def ids (tx : DamlTransaction) : List String :=
  tx.roots ++ tx.nodes.flatMap (fun n => n.nodeId :: n.childIds) ++
    tx.nodeSeeds.map NodeSeed.idText

/-- The id is a root or a child of a node that is reached. -/
def Reached (tx : DamlTransaction) (id : String) : Prop :=
  ∃ level, AtLevel (nodeWalk tx).children tx.roots level id

/-- One change to how a transaction is written down. -/
inductive Rephrased (tx : DamlTransaction) : DamlTransaction → Prop
  | nodes {nodes : List Node} : nodes.Perm tx.nodes → Rephrased tx { tx with nodes }
  | seeds {nodeSeeds : List NodeSeed} : nodeSeeds.Perm tx.nodeSeeds →
    Rephrased tx { tx with nodeSeeds }
  | parties {nodes : List Node} : List.Forall₂ Node.Reordered tx.nodes nodes →
    Rephrased tx { tx with nodes }
  -- an added node has a fresh id, so no id that is reached and has a node is its
  | unreached {nodes : List Node} {nodeSeeds : List NodeSeed} :
    DistinctIds { tx with nodes := tx.nodes ++ nodes, nodeSeeds := tx.nodeSeeds ++ nodeSeeds } →
    (∀ s ∈ nodeSeeds, ¬ tx.Reached s.idText) →
    Rephrased tx { tx with nodes := tx.nodes ++ nodes, nodeSeeds := tx.nodeSeeds ++ nodeSeeds }
  | renamed {ρ : String → String} {nodeSeeds : List NodeSeed} :
    (∀ a ∈ tx.ids, ∀ b ∈ tx.ids, ρ a = ρ b → a = b) →
    List.Forall₂ (NodeSeed.Renamed ρ) tx.nodeSeeds nodeSeeds →
    Rephrased tx { tx with
      roots := tx.roots.map ρ, nodes := tx.nodes.map (Node.rename ρ), nodeSeeds }

end DamlTransaction

/-- One change to how a prepared transaction is written down. -/
inductive PreparedTransaction.Rephrased (p : PreparedTransaction) : PreparedTransaction → Prop
  | transaction {tx tx' : DamlTransaction} : p.transaction = some tx → tx.Rephrased tx' →
    Rephrased p { p with transaction := some tx' }
  | actAs {m : Metadata} {s : SubmitterInfo} {actAs : List String} : p.metadata = some m →
    m.submitterInfo = some s → actAs.Perm s.actAs →
    Rephrased p { p with metadata := some { m with submitterInfo := some { s with actAs } } }
  | inputContracts {m : Metadata} {inputContracts : List InputContract} : p.metadata = some m →
    List.Forall₂ InputContract.Reordered m.inputContracts inputContracts →
    Rephrased p { p with metadata := some { m with inputContracts } }

/-! ## Encodings -/

section Encodings

variable [Hex]

variable {walk walk' : NodeWalk} {ρ : String → String} {n n' : Node}

omit [Hex] in
theorem stringSet_perm {xs ys : List String} (h : xs.Perm ys) : stringSet xs = stringSet ys := by
  have both : (xs.insertionSort (· ≤ ·)).Perm (ys.insertionSort (· ≤ ·)) :=
    (List.perm_insertionSort _ xs).trans (h.trans (List.perm_insertionSort _ ys).symm)
  have sorted := both.eq_of_pairwise (fun _ _ _ _ => le_antisymm) (List.pairwise_insertionSort _ xs)
    (List.pairwise_insertionSort _ ys)
  unfold stringSet
  rw [sorted]

theorem encodeCreateNode_reordered {c c' : Create} (h : c.Reordered c') (seed : Option Bytes) :
    encodeCreateNode c' seed = encodeCreateNode c seed := by
  cases h with
  | parties hsignatories hstakeholders =>
    unfold encodeCreateNode
    rw [stringSet_perm hsignatories, stringSet_perm hstakeholders]

/-- A node is encoded as it was, whatever the order of its parties. -/
theorem nodeBody_reordered (h : n.Reordered n') : nodeBody walk n' = nodeBody walk n := by
  cases h with
  | same => rfl
  | parties ht =>
    unfold nodeBody nodeBytes
    simp only [context_some, ok_bind]
    cases ht with
    | create hc =>
      simp only [encodeNodeType]
      rw [encodeCreateNode_reordered hc]
    | exercise he =>
      cases he with
      | parties hsignatories hstakeholders hacting hobservers =>
        simp only [encodeNodeType, encodeExerciseNode, stringSet_perm hsignatories,
          stringSet_perm hstakeholders, stringSet_perm hacting, stringSet_perm hobservers]
    | fetch hf =>
      cases hf with
      | parties hsignatories hstakeholders hacting =>
        simp only [encodeNodeType, encodeFetchNode, stringSet_perm hsignatories,
          stringSet_perm hstakeholders, stringSet_perm hacting]
    | rollback => rfl

/-- A node is encoded as it was under another id that has its seed. -/
theorem nodeBody_rename (h : walk'.seeds.lookup (ρ n.nodeId) = walk.seeds.lookup n.nodeId) :
    nodeBody walk' (n.rename ρ) = nodeBody walk n := by
  obtain ⟨nodeId, versioned⟩ := n
  cases versioned with
  | none => rfl
  | some v1 =>
  obtain ⟨nodeType⟩ := v1
  cases nodeType with
  | none => rfl
  | some t =>
  unfold nodeBody nodeBytes
  simp only [Node.rename, Option.map_some, context_some, ok_bind]
  cases t with
  | create c => simp only [NodeType.rename, encodeNodeType, h]
  | exercise e => simp only [NodeType.rename, encodeNodeType, encodeExerciseNode, h, ok_bind]
  | fetch f => rfl
  | rollback r => rfl

omit [Hex] in
theorem childIds_reordered (h : n.Reordered n') : n'.childIds = n.childIds := by
  cases h with
  | same => rfl
  | parties ht =>
    cases ht with
    | create | fetch | rollback => rfl
    | exercise he =>
      cases he
      rfl

omit [Hex] in
theorem isParent_reordered (h : n.Reordered n') : n'.isParent = n.isParent := by
  cases h with
  | same => rfl
  | parties ht => cases ht <;> rfl

omit [Hex] in
theorem childIds_rename : (n.rename ρ).childIds = n.childIds.map ρ := by
  obtain ⟨nodeId, versioned⟩ := n
  rcases versioned with _ | ⟨_ | t⟩
  · rfl
  · rfl
  · cases t <;> rfl

omit [Hex] in
theorem isParent_rename : (n.rename ρ).isParent = n.isParent := by
  obtain ⟨nodeId, versioned⟩ := n
  rcases versioned with _ | ⟨_ | t⟩
  · rfl
  · rfl
  · cases t <;> rfl

end Encodings

/-! ## The walk -/

/-- The node is encoded as the other, and its children are the other's under their new ids. -/
structure EncodesAs [Hex] (ρ : String → String) (walk walk' : NodeWalk) (n n' : Node) : Prop where
  body : nodeBody walk' n' = nodeBody walk n
  isParent : n'.isParent = n.isParent
  childIds : n'.childIds = n.childIds.map ρ

/-- Under their new ids, the second walk finds the nodes in use as the first does. -/
structure Simulates [Hex] (ρ : String → String) (InUse : String → Prop) (walk walk' : NodeWalk) : Prop where
  distinct : ∀ a b, InUse a → InUse b → ρ a = ρ b → a = b
  children : ∀ id n, InUse id → walk.nodes.lookup id = some n → ∀ child ∈ n.childIds, InUse child
  node : ∀ id n, InUse id → walk.nodes.lookup id = some n →
    ∃ n', walk'.nodes.lookup (ρ id) = some n' ∧ EncodesAs ρ walk walk' n n'

/-- What encodes ids in use is followed under the new ids, with the same bytes. -/
def Follows (ρ : String → String) (InUse : String → Prop)
    (enc enc' : List String → List String → Except String (Bytes × List String)) : Prop :=
  ∀ ids seen b seen', (∀ id ∈ ids, InUse id) → (∀ id ∈ seen, InUse id) →
    enc ids seen = .ok (b, seen') →
    enc' (ids.map ρ) (seen.map ρ) = .ok (b, seen'.map ρ) ∧ ∀ id ∈ seen', InUse id

section Walk

variable [Hex]

variable {sha256 : Bytes → Digest} {ρ : String → String} {InUse : String → Prop}
  {walk walk' : NodeWalk}
  {enc enc' : List String → List String → Except String (Bytes × List String)}

theorem nodeBytes_follows (henc : Follows ρ InUse enc enc') {n n' : Node}
    (h : EncodesAs ρ walk walk' n n') (hchildren : ∀ id ∈ n.childIds, InUse id)
    {seen seen' : List String} {acc : Bytes} (hseen : ∀ id ∈ seen, InUse id)
    (hok : nodeBytes enc walk n seen = .ok (acc, seen')) :
    nodeBytes enc' walk' n' (seen.map ρ) = .ok (acc, seen'.map ρ) ∧ ∀ id ∈ seen', InUse id := by
  rw [nodeBytes_eq] at hok ⊢
  rw [h.body, h.isParent, h.childIds]
  obtain ⟨body, hbody, hok⟩ := bind_eq_ok.mp hok
  rw [hbody]
  simp only [ok_bind]
  cases hparent : n.isParent with
  | true =>
    rw [hparent, if_pos rfl] at hok
    rw [if_pos rfl]
    obtain ⟨⟨b, s⟩, hdown, hok⟩ := bind_eq_ok.mp hok
    obtain ⟨rfl, rfl⟩ := Prod.mk.inj (pure_eq_ok.mp hok)
    obtain ⟨hdown', hin⟩ := henc _ _ _ _ hchildren hseen hdown
    refine ⟨?_, hin⟩
    rw [hdown']
    rfl
  | false =>
    rw [hparent, if_neg Bool.false_ne_true] at hok
    rw [if_neg Bool.false_ne_true]
    obtain ⟨rfl, rfl⟩ := Prod.mk.inj (pure_eq_ok.mp hok)
    exact ⟨rfl, hseen⟩

/-- An id in use is seen under its new id if it was seen under its own. -/
theorem Simulates.mem_map (h : Simulates ρ InUse walk walk') {id : String} {seen : List String}
    (hid : InUse id) (hseen : ∀ id ∈ seen, InUse id) : ρ id ∈ seen.map ρ ↔ id ∈ seen := by
  constructor
  · intro hmem
    obtain ⟨other, hother, heq⟩ := List.mem_map.mp hmem
    exact h.distinct other id (hseen other hother) hid heq ▸ hother
  · exact List.mem_map_of_mem

theorem hashEach_follows (h : Simulates ρ InUse walk walk') (henc : Follows ρ InUse enc enc') :
    Follows ρ InUse (hashEach sha256 enc walk) (hashEach sha256 enc' walk') := by
  intro ids
  induction ids with
  | nil =>
    intro seen b seen' _ hseen hok
    obtain ⟨rfl, rfl⟩ := Prod.mk.inj (Except.ok.inj hok)
    exact ⟨rfl, hseen⟩
  | cons id ids ih =>
    intro seen b seen' hids hseen hok
    have hid := hids id List.mem_cons_self
    rw [hashEach] at hok
    rw [List.map_cons, hashEach]
    simp only [h.mem_map hid hseen]
    split at hok
    · cases hok
    · rename_i hnew
      rw [if_neg hnew]
      obtain ⟨n, hn, hok⟩ := bind_eq_ok.mp hok
      obtain ⟨⟨digest, s⟩, hhash, hok⟩ := bind_eq_ok.mp hok
      obtain ⟨⟨acc, s'⟩, hacc, hhash⟩ := bind_eq_ok.mp hhash
      obtain ⟨rfl, rfl⟩ := Prod.mk.inj (pure_eq_ok.mp hhash)
      obtain ⟨⟨rest, s⟩, hrest, hok⟩ := bind_eq_ok.mp hok
      obtain ⟨rfl, rfl⟩ := Prod.mk.inj (pure_eq_ok.mp hok)
      have hn := context_eq_ok.mp hn
      obtain ⟨n', hn', hsame⟩ := h.node id n hid hn
      obtain ⟨hacc', hin⟩ := nodeBytes_follows henc hsame (h.children id n hid hn)
        (List.forall_mem_cons.mpr ⟨hid, hseen⟩) hacc
      obtain ⟨hrest', hin'⟩ := ih s' rest _ (fun x hx => hids x (List.mem_cons_of_mem _ hx)) hin hrest
      refine ⟨?_, hin'⟩
      rw [List.map_cons] at hacc'
      rw [hn', context_some, ok_bind, hashNode, hacc', ok_bind]
      simp only [pure_bind, hrest', ok_bind]
      rfl

/-- **The walk under new ids**, by induction on the levels still allowed. -/
theorem encodeNodeIds_follows (h : Simulates ρ InUse walk walk') (left : Nat) :
    Follows ρ InUse (encodeNodeIds sha256 walk left) (encodeNodeIds sha256 walk' left) := by
  induction left with
  | zero =>
    intro ids seen b seen' _ hseen hok
    rw [encodeNodeIds] at hok ⊢
    rw [List.length_map]
    split at hok
    · cases hok
    · rename_i hids
      obtain ⟨rfl, rfl⟩ := Prod.mk.inj (Except.ok.inj hok)
      rw [if_neg (by simpa using hids)]
      exact ⟨rfl, hseen⟩
  | succ left ih =>
    intro ids seen b seen' hids hseen hok
    rw [encodeNodeIds] at hok ⊢
    obtain ⟨⟨hs, s⟩, hhash, hok⟩ := bind_eq_ok.mp hok
    obtain ⟨rfl, rfl⟩ := Prod.mk.inj (pure_eq_ok.mp hok)
    obtain ⟨hhash', hin⟩ := hashEach_follows h ih ids seen hs s hids hseen hhash
    refine ⟨?_, hin⟩
    rw [hhash', List.length_map]
    rfl

/-- What is hashed for a transaction is what is hashed for one that simulates it. -/
theorem transactionBytes_follows {tx tx' : DamlTransaction} {acc : Bytes}
    (h : Simulates ρ InUse (nodeWalk tx) (nodeWalk tx')) (hroots : ∀ id ∈ tx.roots, InUse id)
    (hversion : tx'.version = tx.version) (hroots' : tx'.roots = tx.roots.map ρ)
    (hok : transactionBytes sha256 tx = .ok acc) : transactionBytes sha256 tx' = .ok acc := by
  obtain ⟨⟨roots, seen⟩, hwalk, hok⟩ := bind_eq_ok.mp hok
  obtain ⟨hwalk', -⟩ :=
    encodeNodeIds_follows h maxNodeDepth tx.roots [] roots seen hroots (List.forall_mem_nil _) hwalk
  rw [transactionBytes, hversion, hroots']
  exact bind_eq_ok.mpr ⟨_, hwalk', hok⟩

end Walk

/-! ## Finding nodes and seeds by id -/

section Lookup

/-- Where keys are distinct, the member found for a key is the one that has it. -/
theorem find?_key_eq_some {α κ : Type} [DecidableEq κ] {key : α → κ} {l : List α}
    (h : (l.map key).Nodup) {k : κ} {a : α} :
    l.find? (fun x => key x == k) = some a ↔ a ∈ l ∧ key a = k := by
  induction l with
  | nil => simp
  | cons x l ih =>
    rw [List.map_cons, List.nodup_cons] at h
    rw [List.find?_cons]
    by_cases hx : key x = k
    · have other : ∀ b ∈ l, key b ≠ k := fun b hb hk =>
        h.1 (hx.trans hk.symm ▸ List.mem_map_of_mem hb)
      simp only [hx, beq_self_eq_true, Option.some.injEq, List.mem_cons]
      constructor
      · rintro rfl
        exact ⟨.inl rfl, hx⟩
      · rintro ⟨rfl | ha, hk⟩
        · rfl
        · exact absurd hk (other a ha)
    · rw [beq_eq_false_iff_ne.mpr hx]
      dsimp only
      rw [ih h.2, List.mem_cons]
      refine and_congr_left fun hk => ?_
      rw [or_iff_right]
      rintro rfl
      exact hx hk

theorem map_eq_of_forall₂ {α β γ : Type} {f : α → γ} {g : β → γ} {l : List α} {l' : List β}
    (h : List.Forall₂ (fun a b => f a = g b) l l') : l.map f = l'.map g := by
  induction h with
  | nil => rfl
  | cons hab _ ih => rw [List.map_cons, List.map_cons, hab, ih]

variable {tx tx' : DamlTransaction} {id : String}

theorem lookup_nodes (d : tx.DistinctIds) {n : Node} :
    (nodeWalk tx).nodes.lookup id = some n ↔ n ∈ tx.nodes ∧ n.nodeId = id := by
  have distinct : (tx.nodes.reverse.map Node.nodeId).Nodup := by
    rw [List.map_reverse]
    exact List.nodup_reverse.mpr d.nodes
  rw [nodeWalk, lookup_buildNodesDict, find?_key_eq_some distinct, List.mem_reverse]

/-- The first seed of an id is kept. -/
theorem lookup_buildSeedMap (nodeSeeds : List NodeSeed) (id : String) :
    (buildSeedMap nodeSeeds).lookup id =
      (nodeSeeds.find? (fun s => s.idText == id)).map NodeSeed.seed := by
  have fold : ∀ (l : List NodeSeed) (map : SeedMap),
      (l.foldl (fun map ns => if toString ns.nodeId.toInt ∈ map then map
        else map.insert (toString ns.nodeId.toInt) ns.seed) map).lookup id =
      (map.lookup id).or ((l.find? (fun s => s.idText == id)).map NodeSeed.seed) := by
    intro l
    induction l with
    | nil =>
      intro map
      rw [List.foldl_nil, List.find?_nil, Option.map_none, Option.or_none]
    | cons s l ih =>
      intro map
      rw [List.foldl_cons, ih, List.find?_cons, NodeSeed.idText]
      by_cases hs : toString s.nodeId.toInt = id
      · subst hs
        by_cases hmem : toString s.nodeId.toInt ∈ map
        · obtain ⟨b, hb⟩ := Option.isSome_iff_exists.mp (AList.lookup_isSome.mpr hmem)
          rw [if_pos hmem, hb, Option.some_or, Option.some_or]
        · rw [if_neg hmem, AList.lookup_insert, AList.lookup_eq_none.mpr hmem, Option.none_or,
            beq_self_eq_true]
          rfl
      · rw [beq_eq_false_iff_ne.mpr hs]
        split
        · rfl
        · rw [AList.lookup_insert_ne fun e => hs e.symm]
  have all := fold nodeSeeds ∅
  rw [AList.lookup_empty, Option.none_or] at all
  exact all

theorem distinct_idTexts (d : tx.DistinctIds) : (tx.nodeSeeds.map NodeSeed.idText).Nodup := by
  have texts : tx.nodeSeeds.map NodeSeed.idText =
      (tx.nodeSeeds.map NodeSeed.nodeId).map fun i => toString i.toInt := by
    rw [List.map_map]
    rfl
  rw [texts]
  exact d.seeds.map fun i j h => Int32.toInt_inj.mp (intText_injective h)

theorem lookup_seeds (d : tx.DistinctIds) {b : Bytes} :
    (nodeWalk tx).seeds.lookup id = some b ↔ ∃ s ∈ tx.nodeSeeds, s.idText = id ∧ s.seed = b := by
  rw [nodeWalk, lookup_buildSeedMap, Option.map_eq_some_iff]
  simp only [find?_key_eq_some (distinct_idTexts d), and_assoc]

/-- Two transactions that have the same seed for an id find the same one. -/
theorem lookup_seeds_eq (d : tx.DistinctIds) (d' : tx'.DistinctIds) {id' : String}
    (h : ∀ b, (∃ s ∈ tx'.nodeSeeds, s.idText = id' ∧ s.seed = b) ↔
      ∃ s ∈ tx.nodeSeeds, s.idText = id ∧ s.seed = b) :
    (nodeWalk tx').seeds.lookup id' = (nodeWalk tx).seeds.lookup id := by
  apply Option.ext
  intro b
  rw [lookup_seeds d', lookup_seeds d]
  exact h b

end Lookup

/-! ## Each change -/

section Changes

variable [Hex]

variable {tx tx' : DamlTransaction} {ρ : String → String} {InUse : String → Prop}

omit [Hex] in
theorem nodeId_reordered {n n' : Node} (h : n.Reordered n') : n'.nodeId = n.nodeId := by
  cases h <;> rfl

omit [Hex] in
theorem rename_id (n : Node) : n.rename id = n := by
  obtain ⟨nodeId, versioned⟩ := n
  rcases versioned with _ | ⟨_ | t⟩
  · rfl
  · rfl
  · cases t <;> simp [Node.rename, NodeType.rename]

/-- A transaction has every node in use of the other, renamed and reordered, and finds the same
seeds for them. -/
theorem simulates_of (d : tx.DistinctIds) (d' : tx'.DistinctIds)
    (distinct : ∀ a b, InUse a → InUse b → ρ a = ρ b → a = b)
    (children : ∀ n ∈ tx.nodes, InUse n.nodeId → ∀ child ∈ n.childIds, InUse child)
    (nodes : ∀ n ∈ tx.nodes, InUse n.nodeId → ∃ n' ∈ tx'.nodes, (n.rename ρ).Reordered n')
    (seeds : ∀ id, InUse id →
      (nodeWalk tx').seeds.lookup (ρ id) = (nodeWalk tx).seeds.lookup id) :
    Simulates ρ InUse (nodeWalk tx) (nodeWalk tx') where
  distinct := distinct
  children := by
    intro id n hid hn
    obtain ⟨hmem, rfl⟩ := (lookup_nodes d).mp hn
    exact children n hmem hid
  node := by
    intro id n hid hn
    obtain ⟨hmem, rfl⟩ := (lookup_nodes d).mp hn
    obtain ⟨n', hmem', hsame⟩ := nodes n hmem hid
    refine ⟨n', (lookup_nodes d').mpr ⟨hmem', nodeId_reordered hsame⟩, ?_, ?_, ?_⟩
    · exact (nodeBody_reordered hsame).trans (nodeBody_rename (seeds _ hid))
    · exact (isParent_reordered hsame).trans isParent_rename
    · exact (childIds_reordered hsame).trans childIds_rename

omit [Hex] in
theorem mem_ids_node {n : Node} (hn : n ∈ tx.nodes) : n.nodeId ∈ tx.ids :=
  List.mem_append_left _ (List.mem_append_right _ (List.mem_flatMap.mpr ⟨n, hn, List.mem_cons_self⟩))

omit [Hex] in
theorem mem_ids_child {n : Node} (hn : n ∈ tx.nodes) {child : String} (h : child ∈ n.childIds) :
    child ∈ tx.ids :=
  List.mem_append_left _ (List.mem_append_right _
    (List.mem_flatMap.mpr ⟨n, hn, List.mem_cons_of_mem _ h⟩))

omit [Hex] in
theorem mem_ids_seed {s : NodeSeed} (hs : s ∈ tx.nodeSeeds) : s.idText ∈ tx.ids :=
  List.mem_append_right _ (List.mem_map_of_mem hs)

omit [Hex] in
theorem mem_ids_root {id : String} (h : id ∈ tx.roots) : id ∈ tx.ids :=
  List.mem_append_left _ (List.mem_append_left _ h)

omit [Hex] in
/-- What is below a reached node is reached. -/
theorem reached_child (d : tx.DistinctIds) {n : Node} (hn : n ∈ tx.nodes)
    (h : tx.Reached n.nodeId) {child : String} (hchild : child ∈ n.childIds) : tx.Reached child := by
  obtain ⟨level, h⟩ := h
  refine ⟨level + 1, .child h ?_⟩
  rw [NodeWalk.children, (lookup_nodes d).mpr ⟨hn, rfl⟩]
  exact hchild

omit [Hex] in
theorem DamlTransaction.Rephrased.distinctIds (h : tx.Rephrased tx') (d : tx.DistinctIds) :
    tx'.DistinctIds := by
  cases h with
  | nodes h => exact ⟨(h.map _).nodup_iff.mpr d.nodes, d.seeds⟩
  | seeds h => exact ⟨d.nodes, (h.map _).nodup_iff.mpr d.seeds⟩
  | parties h =>
    have ids := map_eq_of_forall₂ (h.imp fun _ _ h => (nodeId_reordered h).symm)
    exact ⟨ids ▸ d.nodes, d.seeds⟩
  | unreached d' => exact d'
  | @renamed ρ nodeSeeds hinj hseeds =>
    constructor
    · have ids : (tx.nodes.map (Node.rename ρ)).map Node.nodeId = (tx.nodes.map Node.nodeId).map ρ := by
        rw [List.map_map, List.map_map]
        rfl
      dsimp only
      rw [ids]
      refine d.nodes.map_on ?_
      intro a ha b hb
      obtain ⟨n, hn, rfl⟩ := List.mem_map.mp ha
      obtain ⟨m, hm, rfl⟩ := List.mem_map.mp hb
      exact hinj _ (mem_ids_node hn) _ (mem_ids_node hm)
    · have texts : (tx.nodeSeeds.map NodeSeed.idText).map ρ = nodeSeeds.map NodeSeed.idText := by
        rw [List.map_map]
        exact map_eq_of_forall₂ (hseeds.imp fun _ _ h => h.idText.symm)
      have distinct : (nodeSeeds.map NodeSeed.idText).Nodup := by
        rw [← texts]
        refine (distinct_idTexts d).map_on ?_
        intro a ha b hb
        obtain ⟨s, hs, rfl⟩ := List.mem_map.mp ha
        obtain ⟨t, ht, rfl⟩ := List.mem_map.mp hb
        exact hinj _ (mem_ids_seed hs) _ (mem_ids_seed ht)
      have split : nodeSeeds.map NodeSeed.idText =
          (nodeSeeds.map NodeSeed.nodeId).map fun i => toString i.toInt := by
        rw [List.map_map]
        rfl
      rw [split] at distinct
      exact distinct.of_map _

/-- Where ids stay, it is enough that each node in use is there with its seed. -/
theorem transactionBytes_sameIds {sha256 : Bytes → Digest} {acc : Bytes} (d : tx.DistinctIds)
    (d' : tx'.DistinctIds) (InUse : String → Prop) (roots : ∀ id ∈ tx.roots, InUse id)
    (children : ∀ n ∈ tx.nodes, InUse n.nodeId → ∀ child ∈ n.childIds, InUse child)
    (nodes : ∀ n ∈ tx.nodes, ∃ n' ∈ tx'.nodes, n.Reordered n')
    (seeds : ∀ id, InUse id → (nodeWalk tx').seeds.lookup id = (nodeWalk tx).seeds.lookup id)
    (hversion : tx'.version = tx.version) (hroots : tx'.roots = tx.roots)
    (hok : transactionBytes sha256 tx = .ok acc) : transactionBytes sha256 tx' = .ok acc := by
  have sim : Simulates id InUse (nodeWalk tx) (nodeWalk tx') := by
    refine simulates_of d d' (fun a b _ _ hab => hab) children ?_ seeds
    intro n hn _
    rw [rename_id]
    exact nodes n hn
  refine transactionBytes_follows sim roots hversion ?_ hok
  rw [hroots, List.map_id]

/-- **What a change preserves**: what is hashed for the transaction. -/
theorem DamlTransaction.Rephrased.transactionBytes_eq {sha256 : Bytes → Digest} {acc : Bytes}
    (h : tx.Rephrased tx') (d : tx.DistinctIds) (hok : transactionBytes sha256 tx = .ok acc) :
    transactionBytes sha256 tx' = .ok acc := by
  have d' := h.distinctIds d
  cases h with
  | nodes h =>
    refine transactionBytes_sameIds d d' (fun _ => True) (fun _ _ => trivial)
      (fun _ _ _ _ _ => trivial) ?_ (fun _ _ => rfl) rfl rfl hok
    intro n hn
    exact ⟨n, h.mem_iff.mpr hn, .same n⟩
  | seeds h =>
    refine transactionBytes_sameIds d d' (fun _ => True) (fun _ _ => trivial)
      (fun _ _ _ _ _ => trivial) (fun n hn => ⟨n, hn, .same n⟩) ?_ rfl rfl hok
    intro id _
    refine lookup_seeds_eq d d' fun b => ?_
    simp only [h.mem_iff]
  | parties h =>
    exact transactionBytes_sameIds d d' (fun _ => True) (fun _ _ => trivial)
      (fun _ _ _ _ _ => trivial) (fun _ => mem_of_forall₂_left h) (fun _ _ => rfl) rfl rfl hok
  | @unreached nodes nodeSeeds _ hseeds =>
    refine transactionBytes_sameIds d d' tx.Reached (fun id hid => ⟨1, .root hid⟩)
      (fun n hn h _ => reached_child d hn h)
      (fun n hn => ⟨n, List.mem_append_left _ hn, .same n⟩) ?_ rfl rfl hok
    intro id hreached
    refine lookup_seeds_eq d d' fun b => ?_
    constructor
    · rintro ⟨s, hs, rfl, rfl⟩
      rcases List.mem_append.mp hs with hold | hnew
      · exact ⟨s, hold, rfl, rfl⟩
      · exact absurd hreached (hseeds s hnew)
    · rintro ⟨s, hs, rfl, rfl⟩
      exact ⟨s, List.mem_append_left _ hs, rfl, rfl⟩
  | @renamed ρ nodeSeeds hinj hseeds =>
    have sim : Simulates ρ (· ∈ tx.ids) (nodeWalk tx) (nodeWalk { tx with
        roots := tx.roots.map ρ, nodes := tx.nodes.map (Node.rename ρ), nodeSeeds }) := by
      refine simulates_of d d' (fun a b ha hb => hinj a ha b hb) ?_ ?_ ?_
      · intro n hn _ child hchild
        exact mem_ids_child hn hchild
      · intro n hn _
        exact ⟨_, List.mem_map_of_mem hn, .same _⟩
      · intro id hid
        refine lookup_seeds_eq d d' fun b => ?_
        constructor
        · rintro ⟨s', hs', htext, rfl⟩
          obtain ⟨s, hs, hrenamed⟩ := mem_of_forall₂_left hseeds.flip hs'
          refine ⟨s, hs, ?_, hrenamed.seed.symm⟩
          exact hinj _ (mem_ids_seed hs) _ hid (hrenamed.idText.symm.trans htext)
        · rintro ⟨s, hs, rfl, rfl⟩
          obtain ⟨s', hs', hrenamed⟩ := mem_of_forall₂_left hseeds hs
          exact ⟨s', hs', hrenamed.idText, hrenamed.seed⟩
    exact transactionBytes_follows sim (fun _ => mem_ids_root) rfl rfl hok

theorem encodeInputContract_reordered {sha256 : Bytes → Digest} {ic ic' : InputContract}
    (h : ic.Reordered ic') : encodeInputContract sha256 ic' = encodeInputContract sha256 ic := by
  cases h with
  | same => rfl
  | parties hc =>
    unfold encodeInputContract inputContractBytes
    rw [context_some, context_some, ok_bind, ok_bind, encodeCreateNode_reordered hc]

theorem metadataBytes_actAs {sha256 : Bytes → Digest} {isV3 : Bool} {m : Metadata}
    {s : SubmitterInfo} {actAs : List String} (hs : m.submitterInfo = some s)
    (h : actAs.Perm s.actAs) :
    metadataBytes sha256 { m with submitterInfo := some { s with actAs } } isV3 =
      metadataBytes sha256 m isV3 := by
  unfold metadataBytes
  simp only [hs, context_some, ok_bind, stringSet_perm h]

theorem metadataBytes_inputContracts {sha256 : Bytes → Digest} {isV3 : Bool} {m : Metadata}
    {inputContracts : List InputContract}
    (h : List.Forall₂ InputContract.Reordered m.inputContracts inputContracts) :
    metadataBytes sha256 { m with inputContracts } isV3 = metadataBytes sha256 m isV3 := by
  have contracts : inputContracts.mapM (encodeInputContract sha256) =
      m.inputContracts.mapM (encodeInputContract sha256) :=
    (mapM_eq_of_forall₂ (h.imp fun _ _ h => (encodeInputContract_reordered h).symm)).symm
  unfold metadataBytes
  simp only [contracts, h.length_eq]

end Changes

/-! ## Any sequence of changes -/

section Sequence

variable [Hex]

variable {sha256 : Bytes → Digest} {p p' : PreparedTransaction} {hash : Digest}
  {hashingSchemeVersion : String}

/-- Node ids and seed ids are distinct, if there is a transaction. -/
def PreparedTransaction.DistinctIds (p : PreparedTransaction) : Prop :=
  ∀ tx, p.transaction = some tx → tx.DistinctIds

omit [Hex] in
theorem PreparedTransaction.Rephrased.distinctIds (h : p.Rephrased p') (d : p.DistinctIds) :
    p'.DistinctIds := by
  intro tx htx
  cases h with
  | transaction hold h =>
    obtain rfl := Option.some.inj htx
    exact h.distinctIds (d _ hold)
  | actAs => exact d tx htx
  | inputContracts => exact d tx htx

theorem computeFinalHash_step (d : p.DistinctIds) (h : p.Rephrased p')
    (hok : computeFinalHash sha256 p hashingSchemeVersion = .ok hash) :
    computeFinalHash sha256 p' hashingSchemeVersion = .ok hash := by
  obtain ⟨tx, htx, m, hm, acc, hacc, acc', hacc', heq⟩ := computeFinalHash_eq_ok.mp hok
  refine computeFinalHash_eq_ok.mpr ?_
  cases h with
  | @transaction old new hold h =>
    obtain rfl := Option.some.inj (hold.symm.trans htx)
    exact ⟨new, rfl, m, hm, acc, h.transactionBytes_eq (d _ hold) hacc, acc', hacc', heq⟩
  | @actAs old s actAs hold hs h =>
    obtain rfl := Option.some.inj (hold.symm.trans hm)
    refine ⟨tx, htx, _, rfl, acc, hacc, acc', ?_, heq⟩
    rw [metadataBytes_actAs hs h]
    exact hacc'
  | @inputContracts old contracts hold h =>
    obtain rfl := Option.some.inj (hold.symm.trans hm)
    refine ⟨tx, htx, _, rfl, acc, hacc, acc', ?_, heq⟩
    rw [metadataBytes_inputContracts h]
    exact hacc'

/-- **The final hash ignores representation**: whatever sequence of changes to how a prepared
transaction is written down. -/
theorem computeFinalHash_rephrased (d : p.DistinctIds)
    (hok : computeFinalHash sha256 p hashingSchemeVersion = .ok hash)
    (h : Relation.ReflTransGen PreparedTransaction.Rephrased p p') :
    computeFinalHash sha256 p' hashingSchemeVersion = .ok hash := by
  have both : p'.DistinctIds ∧ computeFinalHash sha256 p' hashingSchemeVersion = .ok hash := by
    induction h with
    | refl => exact ⟨d, hok⟩
    | tail _ h ih => exact ⟨h.distinctIds ih.1, computeFinalHash_step ih.1 h ih.2⟩
  exact both.2

end Sequence

/-! ## Two creates in either order -/

section Sample

local instance swappedHex : Hex := pairedHex

def sampleNode (nodeId : String) : Node where
  nodeId
  versionedNode := some ⟨some (.create {
    lfVersion := "2.1"
    contractId := "00aa"
    packageName := "app"
    templateId := some ⟨"pkg", "Main", "Asset"⟩
    argument := some .unit
    signatories := ["alice", "bob"]
    stakeholders := ["alice", "bob"] })⟩

def sampleMetadata (actAs : List String) : Metadata where
  submitterInfo := some ⟨actAs, "command"⟩
  synchronizerId := "sync"
  mediatorGroup := 0
  transactionUuid := "uuid"
  preparationTime := 1
  inputContracts := []
  minLedgerEffectiveTime := none
  maxLedgerEffectiveTime := none
  maxRecordTime := none

def samplePrepared (nodes : List Node) (actAs : List String) : PreparedTransaction where
  transaction := some ⟨"2.1", ["0", "1"], nodes, [⟨0, [7]⟩, ⟨1, [8]⟩]⟩
  metadata := some (sampleMetadata actAs)

/-- With the nodes and the submitters in the other order the hash is the same. -/
theorem computeFinalHash_rephrased_swapped :
    ∃ hash, computeFinalHash Sha256.hash
        (samplePrepared [sampleNode "0", sampleNode "1"] ["alice", "bob"]) "V2" = .ok hash ∧
      computeFinalHash Sha256.hash
        (samplePrepared [sampleNode "1", sampleNode "0"] ["bob", "alice"]) "V2" = .ok hash := by
  have distinct : (samplePrepared [sampleNode "0", sampleNode "1"] ["alice", "bob"]).DistinctIds := by
    rintro tx ⟨⟩
    exact ⟨by decide, by decide⟩
  have nodes : (samplePrepared [sampleNode "0", sampleNode "1"] ["alice", "bob"]).Rephrased
      (samplePrepared [sampleNode "1", sampleNode "0"] ["alice", "bob"]) :=
    .transaction rfl (.nodes (.swap _ _ _))
  have actAs : (samplePrepared [sampleNode "1", sampleNode "0"] ["alice", "bob"]).Rephrased
      (samplePrepared [sampleNode "1", sampleNode "0"] ["bob", "alice"]) :=
    .actAs (m := sampleMetadata ["alice", "bob"]) rfl rfl (.swap _ _ _)
  refine ⟨_, rfl, computeFinalHash_rephrased distinct rfl ?_⟩
  exact .tail (.tail .refl nodes) actAs

end Sample

end BookAgent.TxVerifier
