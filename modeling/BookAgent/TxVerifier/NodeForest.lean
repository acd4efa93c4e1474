import BookAgent.Lib.Forest
import BookAgent.TxVerifier.InspectedRoot

/-!
# The node walk

The walk over the nodes of a transaction succeeds exactly if the nodes below its roots are a
forest of at most 256 levels whose ids all have a node that can be encoded. Each node is
hashed at most once, whatever the graph looks like and also if the walk fails.
-/

namespace BookAgent.TxVerifier

open BookAgent.Lib

/-! ## Nodes and their children -/

/-- The ids below an id; one without a node has none. -/
def NodeWalk.children (walk : NodeWalk) (nodeId : String) : List String :=
  match walk.nodes.lookup nodeId with
  | some node => node.childIds
  | none => []

/-- Whether the encoding of a node goes on with that of its children. -/
def Node.isParent (node : Node) : Bool :=
  match getNodeType node with
  | some (.exercise _) | some (.rollback _) => true
  | _ => false

/-- The encoding of a node up to its children. -/
def nodeBody [Hex] (walk : NodeWalk) (node : Node) : Except String Bytes :=
  Prod.fst <$> nodeBytes (fun _ seen => .ok ([], seen)) walk node []

/-- The id has a node, and the node can be encoded as far as its children. -/
def Encodes [Hex] (walk : NodeWalk) (nodeId : String) : Prop :=
  ∃ node body, walk.nodes.lookup nodeId = some node ∧ nodeBody walk node = .ok body

section Nodes

variable [Hex]

variable {enc : List String → List String → Except String (Bytes × List String)}
  {walk : NodeWalk} {node : Node} {seen seen' : List String}

omit [Hex] in
theorem Node.childIds_of_not_isParent (h : node.isParent = false) : node.childIds = [] := by
  unfold Node.isParent at h
  unfold Node.childIds
  cases kind : getNodeType node with
  | none => rfl
  | some t =>
    rw [kind] at h
    cases t with
    | create => rfl
    | fetch => rfl
    | exercise => cases h
    | rollback => cases h

omit [Hex] in
theorem ok_bind {α β : Type} (a : α) (f : α → Except String β) : (Except.ok a >>= f) = f a := rfl

omit [Hex] in
theorem error_bind {α β : Type} (e : String) (f : α → Except String β) :
    (Except.error e >>= f) = .error e := rfl

/-- The children's encoding is what the fields of an exercise leave to the end. -/
theorem encodeExerciseNode_eq (exercise : Exercise) (nodeId : String) :
    encodeExerciseNode enc exercise nodeId walk seen = (do
      let body ← Prod.fst <$>
        encodeExerciseNode (fun _ seen => .ok ([], seen)) exercise nodeId walk []
      let children ← enc exercise.children seen
      return (body ++ children.1, children.2)) := by
  unfold encodeExerciseNode
  cases context "Exercise node must have a seed" (walk.seeds.lookup nodeId) with
  | error e => rfl
  | ok seed =>
  cases hexBytes exercise.contractId with
  | error e => rfl
  | ok cid =>
  cases context "Exercise missing template_id" exercise.templateId with
  | error e => rfl
  | ok tid =>
  cases context "Exercise missing chosen_value" exercise.chosenValue with
  | error e => rfl
  | ok chosen =>
  simp only [ok_bind]
  cases encodeValue chosen with
  | error e => rfl
  | ok chosenValue =>
  cases encodeResult exercise.exerciseResult with
  | error e => rfl
  | ok result =>
  cases enc exercise.children seen with
  | error e => rfl
  | ok children =>
  refine congrArg (fun b => Except.ok (b, children.2)) ?_
  simp only [List.append_assoc, List.cons_append, List.append_nil]

/-- A node's own encoding comes first, and its children are what the walk goes on with. -/
theorem nodeBytes_eq : nodeBytes enc walk node seen = (do
    let body ← nodeBody walk node
    if node.isParent then
      let children ← enc node.childIds seen
      return (body ++ children.1, children.2)
    else return (body, seen)) := by
  obtain ⟨nodeId, versioned⟩ := node
  cases versioned with
  | none => rfl
  | some v1 =>
  obtain ⟨nodeType⟩ := v1
  cases nodeType with
  | none => rfl
  | some nodeType =>
  unfold nodeBody nodeBytes
  simp only [context_some, ok_bind]
  cases nodeType with
  | create create =>
    simp only [encodeNodeType]
    cases encodeCreateNode create (walk.seeds.lookup nodeId) <;> rfl
  | fetch fetch =>
    simp only [encodeNodeType]
    cases encodeFetchNode fetch <;> rfl
  | exercise exercise =>
    simp only [encodeNodeType]
    rw [encodeExerciseNode_eq]
    cases encodeExerciseNode (fun _ seen => .ok ([], seen)) exercise nodeId walk [] with
    | error e => rfl
    | ok body =>
      have children : Node.childIds ⟨nodeId, some ⟨some (.exercise exercise)⟩⟩ = exercise.children :=
        rfl
      rw [children]
      cases enc exercise.children seen <;> rfl
  | rollback rollback =>
    simp only [encodeNodeType, encodeRollbackNode]
    have children : Node.childIds ⟨nodeId, some ⟨some (.rollback rollback)⟩⟩ = rollback.children :=
      rfl
    rw [children]
    cases enc rollback.children seen <;> rfl

theorem nodeBytes_eq_ok : (∃ b, nodeBytes enc walk node seen = .ok (b, seen')) ↔
    (∃ body, nodeBody walk node = .ok body) ∧
      (if node.isParent then ∃ c, enc node.childIds seen = .ok (c, seen') else seen' = seen) := by
  rw [nodeBytes_eq]
  cases nodeBody walk node with
  | error e => simp [error_bind]
  | ok body =>
    cases node.isParent with
    | true =>
      cases enc node.childIds seen with
      | error e => simp [ok_bind]
      | ok children => simp [ok_bind, Prod.ext_iff]
    | false => simp [eq_comm]

end Nodes

/-! ## What a successful walk has met -/

section Walks

variable [Hex]

variable {walk : NodeWalk} {left : Nat} {id : String} {ids seen seen' : List String}

/-- The walk below the ids meets each of them for the first time and encodes it. -/
structure Walks (walk : NodeWalk) (left : Nat) (ids seen seen' : List String) : Prop where
  within : WithinDepth walk.children left ids
  nodup : (below walk.children left ids).Nodup
  fresh : (below walk.children left ids).Disjoint seen
  encodes : ∀ id ∈ below walk.children left ids, Encodes walk id
  marked : seen' = (below walk.children left ids).reverse ++ seen

theorem walks_nil : Walks walk left [] seen seen' ↔ seen' = seen := by
  have none : below walk.children left [] = [] := by cases left <;> rfl
  constructor
  · intro h
    have := h.marked
    rwa [none] at this
  · rintro rfl
    refine ⟨?_, ?_, ?_, ?_, ?_⟩
    · cases left with
      | zero => rfl
      | succ left => exact fun a ha => absurd ha List.not_mem_nil
    · rw [none]
      exact List.nodup_nil
    · rw [none]
      exact List.disjoint_nil_left _
    · rw [none]
      exact fun a ha => absurd ha List.not_mem_nil
    · rw [none]
      rfl

/-- The first id, what is below it, and the ids after it. -/
theorem walks_cons : Walks walk (left + 1) (id :: ids) seen seen' ↔
    id ∉ seen ∧ Encodes walk id ∧ ∃ s, Walks walk left (walk.children id) (id :: seen) s ∧
      Walks walk (left + 1) ids s seen' := by
  constructor
  · rintro ⟨within, nodup, fresh, encodes, marked⟩
    rw [below_cons] at nodup fresh encodes marked
    obtain ⟨hid, hrest⟩ := List.nodup_cons.mp nodup
    obtain ⟨hdown, hafter, hapart⟩ := List.nodup_append'.mp hrest
    rw [List.mem_append, not_or] at hid
    rw [List.disjoint_cons_left, List.disjoint_append_left] at fresh
    obtain ⟨hnew, hfresh, hfresh'⟩ := fresh
    rw [List.forall_mem_cons, List.forall_mem_append] at encodes
    refine ⟨hnew, encodes.1, _, ⟨within id List.mem_cons_self, hdown, ?_, encodes.2.1, rfl⟩,
      ⟨fun a ha => within a (List.mem_cons_of_mem _ ha), hafter, ?_, encodes.2.2, ?_⟩⟩
    · exact List.disjoint_cons_right.mpr ⟨hid.1, hfresh⟩
    · rw [List.disjoint_append_right, List.disjoint_reverse_right, List.disjoint_cons_right]
      exact ⟨hapart.symm, hid.2, hfresh'⟩
    · rw [marked, List.reverse_cons, List.reverse_append]
      simp only [List.append_assoc, List.singleton_append]
  · rintro ⟨hnew, hid, s, ⟨within, nodup, fresh, encodes, rfl⟩,
      ⟨within', nodup', fresh', encodes', rfl⟩⟩
    rw [List.disjoint_cons_right] at fresh
    rw [List.disjoint_append_right, List.disjoint_reverse_right, List.disjoint_cons_right] at fresh'
    refine ⟨List.forall_mem_cons.mpr ⟨within, within'⟩, ?_, ?_, ?_, ?_⟩ <;> rw [below_cons]
    · refine List.nodup_cons.mpr ⟨?_, List.nodup_append'.mpr ⟨nodup, nodup', fresh'.1.symm⟩⟩
      rw [List.mem_append, not_or]
      exact ⟨fresh.1, fresh'.2.1⟩
    · rw [List.disjoint_cons_left, List.disjoint_append_left]
      exact ⟨hnew, fresh.2, fresh'.2.2⟩
    · exact List.forall_mem_cons.mpr ⟨hid, List.forall_mem_append.mpr ⟨encodes, encodes'⟩⟩
    · rw [List.reverse_cons, List.reverse_append]
      simp only [List.append_assoc, List.singleton_append]

variable {sha256 : Bytes → Digest}
  {enc : List String → List String → Except String (Bytes × List String)}

/-- The node of an id is encoded and what is below it is walked. -/
theorem nodeBytes_walks
    (henc : ∀ ids seen seen', (∃ b, enc ids seen = .ok (b, seen')) ↔ Walks walk left ids seen seen')
    {node : Node} (hnode : walk.nodes.lookup id = some node) :
    (∃ acc, nodeBytes enc walk node seen = .ok (acc, seen')) ↔
      Encodes walk id ∧ Walks walk left (walk.children id) seen seen' := by
  have children : walk.children id = node.childIds := by
    unfold NodeWalk.children
    rw [hnode]
  have encodes : Encodes walk id ↔ ∃ body, nodeBody walk node = .ok body := by
    unfold Encodes
    rw [hnode]
    exact ⟨fun ⟨_, body, rfl, h⟩ => ⟨body, h⟩, fun ⟨body, h⟩ => ⟨node, body, rfl, h⟩⟩
  rw [nodeBytes_eq_ok, encodes, children]
  refine and_congr_right' ?_
  cases hparent : node.isParent with
  | true => exact henc _ _ _
  | false =>
    rw [Node.childIds_of_not_isParent hparent, walks_nil]
    exact Iff.rfl

theorem hashEach_eq_ok_iff
    (henc : ∀ ids seen seen', (∃ b, enc ids seen = .ok (b, seen')) ↔ Walks walk left ids seen seen') :
    (∃ b, hashEach sha256 enc walk ids seen = .ok (b, seen')) ↔
      Walks walk (left + 1) ids seen seen' := by
  induction ids generalizing seen with
  | nil =>
    rw [walks_nil]
    constructor
    · rintro ⟨b, h⟩
      cases h
      rfl
    · rintro rfl
      exact ⟨[], rfl⟩
  | cons id ids ih =>
    rw [walks_cons]
    unfold hashEach
    split_ifs with hseen
    · refine iff_of_false ?_ fun h => h.1 hseen
      rintro ⟨b, h⟩
      cases h
    · constructor
      · rintro ⟨b, h⟩
        obtain ⟨node, hnode, h⟩ := bind_eq_ok.mp h
        obtain ⟨⟨d, s⟩, hhash, h⟩ := bind_eq_ok.mp h
        obtain ⟨⟨acc, _⟩, hacc, h'⟩ := bind_eq_ok.mp hhash
        obtain ⟨-, rfl⟩ := Prod.mk.inj (pure_eq_ok.mp h')
        obtain ⟨⟨hs, _⟩, hrest, h⟩ := bind_eq_ok.mp h
        obtain ⟨-, rfl⟩ := Prod.mk.inj (pure_eq_ok.mp h)
        obtain ⟨hid, hdown⟩ := (nodeBytes_walks henc (context_eq_ok.mp hnode)).mp ⟨acc, hacc⟩
        exact ⟨hseen, hid, _, hdown, ih.mp ⟨hs, hrest⟩⟩
      · rintro ⟨-, hid, s, hdown, hrest⟩
        have hnode := hid
        obtain ⟨node, -, hnode, -⟩ := hnode
        obtain ⟨acc, hacc⟩ := (nodeBytes_walks henc hnode).mpr ⟨hid, hdown⟩
        obtain ⟨hs, hrest⟩ := ih.mpr hrest
        refine ⟨_, bind_eq_ok.mpr ⟨node, context_eq_ok.mpr hnode, bind_eq_ok.mpr
          ⟨(sha256 acc, s), bind_eq_ok.mpr ⟨(acc, s), hacc, rfl⟩, bind_eq_ok.mpr
            ⟨(hs, seen'), hrest, rfl⟩⟩⟩⟩

/-- The walk over a list of ids, by induction on the levels still allowed. -/
theorem encodeNodeIds_eq_ok_iff :
    (∃ b, encodeNodeIds sha256 walk left ids seen = .ok (b, seen')) ↔
      Walks walk left ids seen seen' := by
  induction left generalizing ids seen seen' with
  | zero =>
    unfold encodeNodeIds
    split_ifs with hids
    · refine iff_of_false ?_ fun h => hids h.within
      rintro ⟨b, h⟩
      cases h
    · obtain rfl := not_not.mp hids
      rw [walks_nil]
      constructor
      · rintro ⟨b, h⟩
        cases h
        rfl
      · rintro rfl
        exact ⟨_, rfl⟩
  | succ left ih =>
    rw [← hashEach_eq_ok_iff fun _ _ _ => ih, encodeNodeIds]
    constructor
    · rintro ⟨b, h⟩
      obtain ⟨⟨hs, _⟩, hhash, h⟩ := bind_eq_ok.mp h
      obtain ⟨-, rfl⟩ := Prod.mk.inj (pure_eq_ok.mp h)
      exact ⟨hs, hhash⟩
    · rintro ⟨hs, hhash⟩
      exact ⟨_, bind_eq_ok.mpr ⟨(hs, seen'), hhash, rfl⟩⟩

end Walks

/-! ## The nodes that are hashed -/

section Traced

variable [Hex]

/-- A result and the ids whose nodes were hashed for it, also if it is an error. -/
abbrev Traced := Except String (Bytes × List String) × List String

/-- `nodeBytes` with the nodes hashed below. -/
def nodeBytesTraced (encodeChildren : List String → List String → Traced) (walk : NodeWalk)
    (node : Node) (seen : List String) : Traced :=
  match nodeBody walk node with
  | .error e => (.error e, [])
  | .ok body =>
    if node.isParent then
      let (children, hashed) := encodeChildren node.childIds seen
      ((fun r => (body ++ r.1, r.2)) <$> children, hashed)
    else (.ok (body, seen), [])

variable (sha256 : Bytes → Digest)

/-- `hashEach`, which enters an id when it hashes its node. -/
def hashEachTraced (encodeChildren : List String → List String → Traced) (walk : NodeWalk) :
    List String → List String → Traced
  | [], seen => (.ok ([], seen), [])
  | nodeId :: nodeIds, seen =>
    if nodeId ∈ seen then (.error s!"Node '{nodeId}' referenced more than once", [])
    else
      match walk.nodes.lookup nodeId with
      | none => (.error s!"Node '{nodeId}' not found in transaction", [])
      | some node =>
        match nodeBytesTraced encodeChildren walk node (nodeId :: seen) with
        | (.error e, hashed) => (.error e, nodeId :: hashed)
        | (.ok (acc, seen), hashed) =>
          let (rest, hashed') := hashEachTraced encodeChildren walk nodeIds seen
          ((fun r => ((sha256 acc).val ++ r.1, r.2)) <$> rest, nodeId :: (hashed ++ hashed'))

/-- `encodeNodeIds` with the nodes hashed. -/
def encodeNodeIdsTraced (walk : NodeWalk) : (left : Nat) → List String → List String → Traced
  | 0, nodeIds, seen => (encodeNodeIds sha256 walk 0 nodeIds seen, [])
  | left + 1, nodeIds, seen =>
    let (hs, hashed) := hashEachTraced sha256 (encodeNodeIdsTraced walk left) walk nodeIds seen
    ((fun r => (i32Val (lenAsI32 nodeIds.length) ++ r.1, r.2)) <$> hs, hashed)

/-- `hashTransaction` with the nodes hashed, in order. -/
def hashTransactionTraced (tx : DamlTransaction) : Except String Digest × List String :=
  let (roots, hashed) := encodeNodeIdsTraced sha256 (nodeWalk tx) maxNodeDepth tx.roots []
  ((fun r => sha256 (hashPurpose ++ (strVal tx.version ++ r.1))) <$> roots, hashed)

variable {sha256} {walk : NodeWalk} {left : Nat} {ids seen : List String}
  {enc : List String → List String → Except String (Bytes × List String)}
  {enc' : List String → List String → Traced}

/-! ### The results are the same -/

theorem nodeBytesTraced_fst (henc : ∀ ids seen, (enc' ids seen).1 = enc ids seen) (node : Node) :
    (nodeBytesTraced enc' walk node seen).1 = nodeBytes enc walk node seen := by
  rw [nodeBytes_eq, nodeBytesTraced]
  cases nodeBody walk node with
  | error e => rfl
  | ok body =>
    cases node.isParent with
    | true =>
      have same : (enc' node.childIds seen).1 = enc node.childIds seen := henc _ _
      simp only [if_true, ok_bind, same]
      cases enc node.childIds seen <;> rfl
    | false => rfl

theorem hashEachTraced_fst (henc : ∀ ids seen, (enc' ids seen).1 = enc ids seen) :
    (hashEachTraced sha256 enc' walk ids seen).1 = hashEach sha256 enc walk ids seen := by
  induction ids generalizing seen with
  | nil => rfl
  | cons id ids ih =>
    unfold hashEachTraced hashEach
    split_ifs with hseen
    · rfl
    · cases walk.nodes.lookup id with
      | none => rfl
      | some node =>
        simp only [context_some, ok_bind, hashNode, ← nodeBytesTraced_fst henc]
        rcases nodeBytesTraced enc' walk node (id :: seen) with ⟨e | ⟨acc, s⟩, hashed⟩
        · rfl
        · simp only [ok_bind, pure_bind, ← ih]
          cases (hashEachTraced sha256 enc' walk ids s).1 <;> rfl

theorem encodeNodeIdsTraced_fst :
    (encodeNodeIdsTraced sha256 walk left ids seen).1 = encodeNodeIds sha256 walk left ids seen := by
  induction left generalizing ids seen with
  | zero => rfl
  | succ left ih =>
    rw [encodeNodeIds, ← hashEachTraced_fst fun _ _ => ih, encodeNodeIdsTraced]
    rcases hashEachTraced sha256 (encodeNodeIdsTraced sha256 walk left) walk ids seen with ⟨e | r, _⟩
    · rfl
    · rfl

theorem hashTransactionTraced_fst (tx : DamlTransaction) :
    (hashTransactionTraced sha256 tx).1 = hashTransaction sha256 tx := by
  unfold hashTransaction transactionBytes hashTransactionTraced
  rw [← encodeNodeIdsTraced_fst]
  rcases encodeNodeIdsTraced sha256 (nodeWalk tx) maxNodeDepth tx.roots [] with ⟨e | r, _⟩
  · rfl
  · rfl

/-! ### No node is hashed twice -/

/-- The nodes hashed are distinct and new; a result has marked exactly these. -/
structure HashedOnce (seen : List String) (r : Traced) : Prop where
  nodup : r.2.Nodup
  fresh : r.2.Disjoint seen
  marked : ∀ b s, r.1 = .ok (b, s) → s = r.2.reverse ++ seen

omit [Hex] in
theorem HashedOnce.nothing {r : Except String (Bytes × List String)}
    (h : ∀ b s, r = .ok (b, s) → s = seen) : HashedOnce seen (r, []) :=
  ⟨List.nodup_nil, List.disjoint_nil_left _, h⟩

omit [Hex] in
theorem HashedOnce.map {r : Traced} (h : HashedOnce seen r) (f : Bytes → Bytes) :
    HashedOnce seen ((fun r => (f r.1, r.2)) <$> r.1, r.2) := by
  refine ⟨h.nodup, h.fresh, fun b s hs => ?_⟩
  obtain ⟨⟨b', s'⟩, hr, heq⟩ := map_eq_ok.mp hs
  obtain ⟨-, rfl⟩ := Prod.mk.inj heq
  exact h.marked b' s' hr

omit [Hex] in
/-- A new id before those hashed below it. -/
theorem HashedOnce.cons {id : String} (hid : id ∉ seen) {r : Traced}
    (h : HashedOnce (id :: seen) r) : (id :: r.2).Nodup ∧ (id :: r.2).Disjoint seen := by
  have hdisjoint := List.disjoint_cons_right.mp h.fresh
  exact ⟨List.nodup_cons.mpr ⟨hdisjoint.1, h.nodup⟩, List.disjoint_cons_left.mpr ⟨hid, hdisjoint.2⟩⟩

theorem hashedOnce_nodeBytesTraced (henc : ∀ ids seen, HashedOnce seen (enc' ids seen))
    (node : Node) : HashedOnce seen (nodeBytesTraced enc' walk node seen) := by
  unfold nodeBytesTraced
  cases nodeBody walk node with
  | error e => exact .nothing fun b s h => nomatch h
  | ok body =>
    cases node.isParent with
    | true => exact (henc node.childIds seen).map (body ++ ·)
    | false =>
      refine .nothing fun b s h => ?_
      cases h
      rfl

theorem hashedOnce_hashEachTraced (henc : ∀ ids seen, HashedOnce seen (enc' ids seen)) :
    HashedOnce seen (hashEachTraced sha256 enc' walk ids seen) := by
  induction ids generalizing seen with
  | nil =>
    refine .nothing fun b s h => ?_
    cases h
    rfl
  | cons id ids ih =>
    unfold hashEachTraced
    split_ifs with hseen
    · exact .nothing fun b s h => nomatch h
    · cases walk.nodes.lookup id with
      | none => exact .nothing fun b s h => nomatch h
      | some node =>
        have down : HashedOnce (id :: seen) (nodeBytesTraced enc' walk node (id :: seen)) :=
          hashedOnce_nodeBytesTraced henc node
        dsimp only
        generalize nodeBytesTraced enc' walk node (id :: seen) = r at down ⊢
        rcases r with ⟨e | ⟨acc, s⟩, hashed⟩
        · obtain ⟨hnodup, hfresh⟩ := down.cons hseen
          exact ⟨hnodup, hfresh, fun b s h => nomatch h⟩
        · obtain rfl : s = hashed.reverse ++ id :: seen := down.marked acc s rfl
          have after := @ih (hashed.reverse ++ id :: seen)
          obtain ⟨hnodup, hfresh⟩ := down.cons hseen
          have apart := List.disjoint_append_right.mp after.fresh
          rw [List.disjoint_reverse_right, List.disjoint_cons_right] at apart
          obtain ⟨hdown, hid, hnew⟩ := apart
          refine ⟨?_, ?_, ?_⟩
          · have apart := List.disjoint_cons_left.mpr ⟨hid, hdown.symm⟩
            exact (hnodup : (id :: hashed).Nodup).append after.nodup apart
          · exact fun a ha => (List.mem_append.mp (ha : a ∈ (id :: hashed) ++ _)).elim
              (fun h => hfresh h) fun h => hnew h
          · intro b s h
            have hmarked := (after.map ((sha256 acc).val ++ ·)).marked b s h
            rw [hmarked]
            simp only [List.reverse_cons, List.reverse_append, List.append_assoc,
              List.singleton_append]

theorem hashedOnce_encodeNodeIdsTraced :
    HashedOnce seen (encodeNodeIdsTraced sha256 walk left ids seen) := by
  induction left generalizing ids seen with
  | zero =>
    refine .nothing fun b s h => ?_
    unfold encodeNodeIds at h
    split_ifs at h
    cases h
    rfl
  | succ left ih => exact (hashedOnce_hashEachTraced fun _ _ => ih).map _

end Traced

/-! ## Transactions -/

section Transactions

variable [Hex]

variable {sha256 : Bytes → Digest} {tx : DamlTransaction}

/-- An id below the roots of a transaction, at a level. -/
abbrev NodeAt (tx : DamlTransaction) : Nat → String → Prop :=
  AtLevel (nodeWalk tx).children tx.roots

/-- The ids below the roots form a forest, and each has a node that can be encoded. -/
structure AcceptedForest (tx : DamlTransaction) : Prop where
  forest : IsForest (nodeWalk tx).children tx.roots maxNodeDepth
  encodes : ∀ n id, NodeAt tx n id → Encodes (nodeWalk tx) id

theorem hashTransaction_eq_ok_iff :
    (∃ d, hashTransaction sha256 tx = .ok d) ↔ AcceptedForest tx := by
  have walks : (∃ d, hashTransaction sha256 tx = .ok d) ↔
      ∃ seen, Walks (nodeWalk tx) maxNodeDepth tx.roots [] seen := by
    have roots (seen : List String) : Walks (nodeWalk tx) maxNodeDepth tx.roots [] seen ↔
        ∃ b, encodeNodeIds sha256 (nodeWalk tx) maxNodeDepth tx.roots [] = .ok (b, seen) :=
      encodeNodeIds_eq_ok_iff.symm
    simp only [roots]
    unfold hashTransaction transactionBytes
    cases encodeNodeIds sha256 (nodeWalk tx) maxNodeDepth tx.roots [] with
    | error e => simp
    | ok r => simp [Prod.ext_iff]
  rw [walks]
  constructor
  · rintro ⟨_, within, nodup, -, encodes, rfl⟩
    exact ⟨isForest_iff.mpr ⟨within, nodup⟩, fun n id h =>
      encodes id (mem_below.mpr ⟨n, withinDepth_iff.mp within n id h, h⟩)⟩
  · rintro ⟨hforest, hencodes⟩
    obtain ⟨within, nodup⟩ := isForest_iff.mp hforest
    refine ⟨_, within, nodup, List.disjoint_nil_right _, fun id hid => ?_, rfl⟩
    obtain ⟨n, -, hn⟩ := mem_below.mp hid
    exact hencodes n id hn

omit [Hex] in
/-- The dictionary keeps nodes under their own ids. -/
theorem nodeId_of_lookup {id : String} {node : Node}
    (h : (nodeWalk tx).nodes.lookup id = some node) : node.nodeId = id := by
  have found : tx.nodes.reverse.find? (·.nodeId == id) = some node :=
    (lookup_buildNodesDict tx id).symm.trans h
  have named : (node.nodeId == id) = true :=
    @List.find?_some _ (fun n : Node => n.nodeId == id) _ _ found
  exact beq_iff_eq.mp named

/-- The fields of an exercise are encoded with its seed. -/
theorem seed_of_nodeBody {walk : NodeWalk} {node : Node} {e : Exercise} {body : Bytes}
    (he : getNodeType node = some (.exercise e)) (h : nodeBody walk node = .ok body) :
    ∃ seed, walk.seeds.lookup node.nodeId = some seed := by
  obtain ⟨⟨acc, s⟩, hacc, -⟩ := map_eq_ok.mp h
  obtain ⟨b, -, ⟨c, hc, -⟩ | ⟨e', he', hbytes⟩ | ⟨f, hf, -⟩ | ⟨r, _, hr, -⟩⟩ := nodeBytes_cases hacc
  · cases he.symm.trans hc
  · obtain ⟨seed, hseed, -⟩ := encodeExerciseNode_eq_ok.mp hbytes
    exact ⟨seed, hseed⟩
  · cases he.symm.trans hf
  · cases he.symm.trans hr

/-- **The node walk accepts exactly forests.** Each node is hashed at most once. The walk
succeeds exactly if the ids below the roots are a forest of nodes that can be encoded; then
they all have nodes, and exercises their seeds. An id that is named in two places, or is
below itself, makes it fail. -/
theorem hashTransaction_accepts_forests (sha256 : Bytes → Digest) (tx : DamlTransaction) :
    ((hashTransactionTraced sha256 tx).1 = hashTransaction sha256 tx ∧
      (hashTransactionTraced sha256 tx).2.Nodup) ∧
    ((∃ d, hashTransaction sha256 tx = .ok d) ↔ AcceptedForest tx) ∧
    ((∃ d, hashTransaction sha256 tx = .ok d) → ∀ n id, NodeAt tx n id →
      n ≤ 256 ∧ (∃! p : Place String, p.Names (nodeWalk tx).children tx.roots id) ∧
      ∃ node, (nodeWalk tx).nodes.lookup id = some node ∧
        ∀ e, getNodeType node = some (.exercise e) →
          ∃ seed, (nodeWalk tx).seeds.lookup id = some seed) ∧
    ∀ n id, NodeAt tx n id →
      (∃ p q : Place String, p ≠ q ∧ p.Names (nodeWalk tx).children tx.roots id ∧
        q.Names (nodeWalk tx).children tx.roots id) ∨
      (∃ k, AtLevel (nodeWalk tx).children ((nodeWalk tx).children id) k id) →
      ∃ e, hashTransaction sha256 tx = .error e := by
  have once : HashedOnce [] (encodeNodeIdsTraced sha256 (nodeWalk tx) maxNodeDepth tx.roots []) :=
    hashedOnce_encodeNodeIdsTraced
  refine ⟨⟨hashTransactionTraced_fst tx, once.nodup⟩,
    hashTransaction_eq_ok_iff, fun h n id hid => ?_, fun n id hid hbad => ?_⟩
  · obtain ⟨forest, encodes⟩ := hashTransaction_eq_ok_iff.mp h
    obtain ⟨node, body, hnode, hbody⟩ := encodes n id hid
    refine ⟨forest.shallow hid, forest.once hid, node, hnode, fun e he => ?_⟩
    obtain ⟨seed, hseed⟩ := seed_of_nodeBody he hbody
    rw [nodeId_of_lookup hnode] at hseed
    exact ⟨seed, hseed⟩
  · cases hresult : hashTransaction sha256 tx with
    | error e => exact ⟨e, rfl⟩
    | ok d =>
      have forest := (hashTransaction_eq_ok_iff.mp ⟨d, hresult⟩).forest
      rcases hbad with ⟨p, q, hne, hp, hq⟩ | ⟨k, hcycle⟩
      · exact absurd ((forest.once hid).unique hp hq) hne
      · exact absurd hcycle (forest.acyclic hid)

end Transactions

end BookAgent.TxVerifier
