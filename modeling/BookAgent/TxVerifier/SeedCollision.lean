import BookAgent.Lib.Sha256
import BookAgent.TxVerifier.Binding

/-!
# Seeds of different lengths

A node's seed is hashed as raw bytes without its length, and nothing checks that
it has 32 of them. A longer seed can therefore swallow the fields that follow a
shorter one. Transactions with a single Create root are enough to show that
binding fails between any two lengths.
-/

namespace BookAgent.TxVerifier

open BookAgent.Lib

/-- The final hash tells apart the transactions with seeds of length `a` from
those with seeds of length `b`, in so far as they commit to different things. -/
def Binds [Hex] (sha256 : Bytes → Digest) (a b : Nat) : Prop :=
  ∀ (p q : PreparedTransaction) (hashingSchemeVersion : String) (hash : Digest),
    p.Fits → q.Fits → SeedsOfLength a p → SeedsOfLength b q →
    CollisionFree sha256 p q hashingSchemeVersion →
    computeFinalHash sha256 p hashingSchemeVersion = .ok hash →
    computeFinalHash sha256 q hashingSchemeVersion = .ok hash →
    ∃ content, commitment p hashingSchemeVersion = some content ∧
      commitment q hashingSchemeVersion = some content

/-! ## One Create root -/

section SingleCreate

variable [Hex]

def singleNode (c : Create) : Node := { nodeId := "0", versionedNode := some ⟨some (.create c)⟩ }

def singleTransaction (c : Create) (seed : Bytes) : DamlTransaction where
  version := "1"
  roots := ["0"]
  nodes := [singleNode c]
  nodeSeeds := [{ nodeId := 0, seed }]

def plainMetadata : Metadata where
  submitterInfo := some { actAs := [], commandId := "" }
  synchronizerId := ""
  mediatorGroup := 0
  transactionUuid := ""
  preparationTime := 0
  inputContracts := []
  minLedgerEffectiveTime := none
  maxLedgerEffectiveTime := none
  maxRecordTime := none

/-- A prepared transaction that creates `c` and does nothing else. -/
def singleCreate (c : Create) (seed : Bytes) : PreparedTransaction where
  transaction := some (singleTransaction c seed)
  metadata := some plainMetadata

variable {sha256 : Bytes → Digest} {c : Create} {seed : Bytes} {n : Node}

omit [Hex] in
@[simp] theorem lookup_singleNode :
    (nodeWalk (singleTransaction c seed)).nodes.lookup "0" = some (singleNode c) := by
  exact AList.lookup_insert _

omit [Hex] in
@[simp] theorem lookup_singleSeed :
    (nodeWalk (singleTransaction c seed)).seeds.lookup "0" = some seed := by
  have id : toString (0 : Int32).toInt = "0" := by decide
  simp only [nodeWalk, buildSeedMap, singleTransaction, List.foldl_cons, List.foldl_nil, id,
    AList.notMem_empty, if_false]
  exact AList.lookup_insert _

omit [Hex] in
/-- Nothing but the root is reached. -/
theorem reaches_singleTransaction (c : Create) (seed : Bytes)
    (h : Reaches (nodeWalk (singleTransaction c seed)).nodes ["0"] n) : n = singleNode c := by
  cases h with
  | here hid hn =>
    rw [List.mem_singleton.mp hid, lookup_singleNode] at hn
    exact (Option.some.inj hn).symm
  | child hid hn hbelow =>
    rw [List.mem_singleton.mp hid, lookup_singleNode] at hn
    obtain rfl := Option.some.inj hn
    cases hbelow <;> simp_all [Node.childIds, singleNode, getNodeType]

theorem nodeBytes_singleNode {enc : List String → List String → Except String (Bytes × List String)}
    {seen : List String} {body : Bytes} (h : encodeCreateNode c (some seed) = .ok body) :
    nodeBytes enc (nodeWalk (singleTransaction c seed)) (singleNode c) seen =
      .ok (nodeEncodingV1 :: body, seen) := by
  have hid : (singleNode c).nodeId = "0" := rfl
  simp [nodeBytes, singleNode, encodeNodeType, h, bind, Except.bind, Functor.map, Except.map,
    pure, Except.pure]

theorem transactionBytes_single {body : Bytes} (h : encodeCreateNode c (some seed) = .ok body) :
    transactionBytes sha256 (singleTransaction c seed) = .ok (hashPurpose ++ (strVal "1" ++
      (i32Val (lenAsI32 1) ++ ((sha256 (nodeEncodingV1 :: body)).val ++ [])))) := by
  have hash : hashEach sha256 (encodeNodeIds sha256 (nodeWalk (singleTransaction c seed)) 255)
      (nodeWalk (singleTransaction c seed)) ["0"] [] =
        .ok ((sha256 (nodeEncodingV1 :: body)).val ++ [], ["0"]) := by
    simp [hashEach, hashNode, nodeBytes_singleNode h, bind, Except.bind, pure, Except.pure]
  have ids : encodeNodeIds sha256 (nodeWalk (singleTransaction c seed)) maxNodeDepth ["0"] [] =
      .ok (i32Val (lenAsI32 1) ++ ((sha256 (nodeEncodingV1 :: body)).val ++ []), ["0"]) := by
    rw [maxNodeDepth, encodeNodeIds, hash]
    rfl
  rw [transactionBytes]
  exact bind_eq_ok.mpr ⟨_, ids, rfl⟩

theorem fits_singleCreate (hc : c.Fits) : (singleCreate c seed).Fits where
  version := by
    rintro _ ⟨⟩
    exact (by decide : (utf8 "1").length + 1 < 2 ^ 32)
  roots := by
    rintro _ ⟨⟩
    exact (by decide : (["0"] : List String).length + 1 < 2 ^ 32)
  nodes := by
    rintro _ ⟨⟩ n hn t ht
    rw [reaches_singleTransaction c seed hn] at ht
    obtain rfl := Option.some.inj ht
    exact hc
  metadata := by
    rintro _ ⟨⟩
    have short : FitsStr "" := (by decide : (utf8 "").length + 1 < 2 ^ 32)
    exact ⟨by rintro _ ⟨⟩; exact ⟨(by decide : (0 : Nat) + 1 < 2 ^ 32), by simp⟩,
      by rintro _ ⟨⟩; exact short, short, short, (by decide : (0 : Nat) + 1 < 2 ^ 32), by
        simp [plainMetadata]⟩

omit [Hex] in
theorem seedsOfLength_singleCreate : SeedsOfLength seed.length (singleCreate c seed) := by
  rintro _ ⟨⟩ n hn s hs
  obtain rfl := reaches_singleTransaction c seed hn
  have hread : (nodeWalk (singleTransaction c seed)).seedOf (singleNode c) =
      (nodeWalk (singleTransaction c seed)).seeds.lookup "0" := rfl
  rw [hread, lookup_singleSeed] at hs
  rw [Option.some.inj hs]

/-- Two roots that encode alike are hashed alike, whatever the hash function. -/
theorem computeFinalHash_singleCreate_eq (sha256 : Bytes → Digest) (v : String) {d : Create}
    {seed' body : Bytes} (h : encodeCreateNode c (some seed) = .ok body)
    (h' : encodeCreateNode d (some seed') = .ok body) :
    ∃ hash, computeFinalHash sha256 (singleCreate c seed) v = .ok hash ∧
      computeFinalHash sha256 (singleCreate d seed') v = .ok hash := by
  obtain ⟨acc, hacc⟩ : ∃ acc,
      metadataBytes sha256 plainMetadata (parseHashingVersion v) = .ok acc := ⟨_, rfl⟩
  exact ⟨_, computeFinalHash_eq_ok.mpr ⟨_, rfl, _, rfl, _, transactionBytes_single h, _, hacc, rfl⟩,
    computeFinalHash_eq_ok.mpr ⟨_, rfl, _, rfl, _, transactionBytes_single h', _, hacc, rfl⟩⟩

/-- They also hash the very same bytes, so no collision is involved. -/
theorem collisionFree_singleCreate {d : Create} {seed' body : Bytes} {v : String}
    (h : encodeCreateNode c (some seed) = .ok body)
    (h' : encodeCreateNode d (some seed') = .ok body) :
    CollisionFree sha256 (singleCreate c seed) (singleCreate d seed') v := by
  have node : ∀ {e : Create} {s acc : Bytes}, encodeCreateNode e (some s) = .ok body →
      NodePreimage sha256 (nodeWalk (singleTransaction e s)) ["0"] acc →
      acc = nodeEncodingV1 :: body := by
    rintro e s acc he ⟨n, left, seen, seen', hn, hacc⟩
    rw [reaches_singleTransaction _ _ hn, nodeBytes_singleNode he] at hacc
    exact (Prod.mk.inj (Except.ok.inj hacc)).1.symm
  rintro layer a b ha hb -
  cases ha with
  | node htx ha =>
    cases hb with
    | node htx' hb =>
      cases htx; cases htx'
      exact (node h ha).trans (node h' hb).symm
  | inputContract hm hic => cases hm; cases hic
  | transaction htx ha =>
    cases hb with
    | transaction htx' hb =>
      cases htx; cases htx'
      rw [transactionBytes_single h] at ha
      rw [transactionBytes_single h'] at hb
      exact (Except.ok.inj ha).symm.trans (Except.ok.inj hb)
  | metadata hm ha =>
    cases hb with
    | metadata hm' hb =>
      cases hm; cases hm'
      exact Except.ok.inj (ha.symm.trans hb)
  | final htx hm htxHash hmetaHash =>
    cases hb with
    | final htx' hm' htxHash' hmetaHash' =>
      cases htx; cases hm; cases htx'; cases hm'
      rw [hashTransaction, transactionBytes_single h] at htxHash
      rw [hashTransaction, transactionBytes_single h'] at htxHash'
      rw [← Except.ok.inj htxHash, ← Except.ok.inj htxHash',
        Except.ok.inj (hmetaHash.symm.trans hmetaHash')]

/-- The seed is part of what a transaction commits to. -/
theorem seed_eq_of_commitment_eq {d : Create} {seed' : Bytes} {v : String} {content : Commitment}
    (h : commitment (singleCreate c seed) v = some content)
    (h' : commitment (singleCreate d seed') v = some content) : seed = seed' := by
  have roots : ∀ {e : Create} {s : Bytes}, commitment (singleCreate e s) v = some content →
      ∃ x, content.roots = [.create (some s) x] := by
    intro e s he
    have forest : forestAt (nodeWalk (singleTransaction e s)) maxNodeDepth ["0"] =
        (createContent e).map fun x => [.create (some s) x] := by
      have tree : nodeTree (forestAt (nodeWalk (singleTransaction e s)) 255)
          (nodeWalk (singleTransaction e s)) (singleNode e) =
            (createContent e).map (.create (some s)) := by
        simp [nodeTree, singleNode, getNodeType]
      rw [maxNodeDepth, forestAt, List.mapM_cons, lookup_singleNode, Option.bind_some, tree]
      cases createContent e <;> rfl
    simp only [commitment, singleCreate, Option.bind_eq_bind, Option.bind_some,
      Option.bind_eq_some_iff] at he
    obtain ⟨roots, hroots, _, -, hcontent⟩ := he
    obtain ⟨x, -, rfl⟩ := Option.map_eq_some_iff.mp (forest.symm.trans hroots)
    rw [← Option.some.inj hcontent]
    exact ⟨x, rfl⟩
  obtain ⟨x, hx⟩ := roots h
  obtain ⟨y, hy⟩ := roots h'
  rw [hx] at hy
  injection hy with hy
  injection hy with hy
  exact Option.some.inj hy

end SingleCreate

/-! ## Colliding roots -/

section Collision

variable [Hex]

def emptyIdentifier : Identifier := { packageId := "", moduleName := "", entityName := "" }

/-- A Create node with as little in it as its encoding allows. -/
def plainCreate (contractId : Bytes) (packageName : String) (argument : Value) : Create where
  lfVersion := ""
  contractId := Hex.encode contractId
  packageName := packageName
  templateId := some emptyIdentifier
  argument := some argument
  signatories := []
  stakeholders := []

theorem encodeCreateNode_plainCreate {contractId seed b : Bytes} {packageName : String}
    {argument : Value} (h : encodeValue argument = .ok b) :
    encodeCreateNode (plainCreate contractId packageName argument) (some seed) =
      .ok (strVal "" ++ (createTag :: ((0x01 :: seed) ++ (bytesVal contractId ++
        (strVal packageName ++ (encodeIdentifier emptyIdentifier ++ (b ++
        (stringSet [] ++ stringSet [])))))))) :=
  encodeCreateNode_eq_ok.mpr ⟨bytesVal contractId,
    hexBytes_eq_ok.mpr ⟨contractId, Hex.decode_encode contractId, rfl⟩,
    emptyIdentifier, rfl, argument, rfl, b, h, rfl⟩

theorem fits_plainCreate {contractId : Bytes} {packageName : String} {argument : Value}
    (hcid : FitsLen contractId.length) (hpkg : FitsStr packageName) (harg : argument.Fits) :
    (plainCreate contractId packageName argument).Fits := by
  have none : FitsStrs [] := ⟨(by decide : (0 : Nat) + 1 < 2 ^ 32), by simp⟩
  have short : FitsStr "" := (by decide : (utf8 "").length + 1 < 2 ^ 32)
  refine ⟨⟨short, (by decide : (utf8 "").length / 2 ^ 24 ≠ 3)⟩, ?_, hpkg, ?_, ?_, none, none⟩
  · intro d hd
    rw [← Option.some.inj ((Hex.decode_encode contractId).symm.trans hd)]
    exact hcid
  · rintro _ ⟨⟩
    exact ⟨short, short, short⟩
  · rintro _ ⟨⟩
    exact harg

def zeros (n : Nat) : Bytes := List.replicate n 0

omit [Hex] in
/-- Four zero bytes of a contract id are the length of an empty one. -/
theorem zeros_shift {d : Nat} (hd : 4 ≤ d) (b : Bytes) :
    bytesVal (zeros d) ++ b =
      (i32Val (lenAsI32 d) ++ zeros (d - 4)) ++ (bytesVal [] ++ b) := by
  have split : zeros d = zeros (d - 4) ++ bytesVal [] := by
    rw [show bytesVal [] = zeros 4 by decide, zeros, zeros, zeros, List.replicate_append_replicate,
      Nat.sub_add_cancel hd]
  rw [bytesVal, split]
  simp [zeros, Nat.sub_add_cancel hd, show (bytesVal []).length = 4 by decide]

omit [Hex] in
/-- Up to three zero bytes: read `d` bytes late, the length `d` of a contract id
of zeros is `d * 256 ^ d`. -/
theorem zeros_late {d : Nat} (h₁ : 0 < d) (h₂ : d < 4) :
    bytesVal (zeros d) = zeros d ++ i32Val (lenAsI32 (d * 256 ^ d)) := by
  interval_cases d <;> decide

/-- Text that reads as the end of a plain Create's content. -/
def hiddenText : Bytes := encodeIdentifier emptyIdentifier ++ [unitTag]

/-- A package name that fills up a contract id of `n + 4` bytes and goes on as
the beginning of another content, up to the length of `hiddenText`. -/
def coverName (n : Nat) : Bytes :=
  zeros n ++ (strVal "" ++ (encodeIdentifier emptyIdentifier ++
    (textTag :: i32Val (lenAsI32 hiddenText.length))))

omit [Hex] in
theorem length_coverName (n : Nat) : (coverName n).length = n + 29 := by
  rw [coverName, List.length_append, zeros, List.length_replicate]
  rfl

omit [Hex] in
theorem utf8_coverName (n : Nat) : utf8 (asciiText (coverName n)) = coverName n := by
  refine utf8_asciiText fun b hb => ?_
  rcases List.mem_append.mp hb with hb | hb
  · rw [List.eq_of_mem_replicate hb]
    decide
  · exact (by decide +kernel : ∀ b ∈ strVal "" ++ (encodeIdentifier emptyIdentifier ++
      (textTag :: i32Val (lenAsI32 hiddenText.length))), b.toNat < 128) b hb

omit [Hex] in
theorem utf8_hiddenText : utf8 (asciiText hiddenText) = hiddenText :=
  utf8_asciiText (by decide +kernel)

/-- Seeds that differ in length by `d` have colliding roots. -/
theorem exists_collision (a : Nat) {d : Nat} (hd : 0 < d) (hfit : FitsLen d) :
    ∃ (c e : Create) (s t body : Bytes), c.Fits ∧ e.Fits ∧ s.length = a ∧ t.length = a + d ∧
      encodeCreateNode c (some s) = .ok body ∧ encodeCreateNode e (some t) = .ok body := by
  have unit : encodeValue .unit = .ok [unitTag] := rfl
  have unitFits : Value.Fits .unit := trivial
  have short : FitsStr "" := (by decide : (utf8 "").length + 1 < 2 ^ 32)
  have empty : FitsLen ([] : Bytes).length := (by decide : (0 : Nat) + 1 < 2 ^ 32)
  have zerosFit : FitsLen (zeros d).length := by simpa [zeros] using hfit
  by_cases hsmall : d < 4
  · -- the shifted length runs over the package name, which hides the second content
    generalize hn : d * 256 ^ d - 4 = n
    have hN : n + 4 = d * 256 ^ d ∧ n + 33 < 2 ^ 32 := by
      subst hn
      interval_cases d <;> decide
    have text : encodeValue (.text (asciiText hiddenText)) =
        .ok (textTag :: (i32Val (lenAsI32 hiddenText.length) ++ hiddenText)) := by
      rw [show encodeValue (.text (asciiText hiddenText)) =
        .ok (textTag :: strVal (asciiText hiddenText)) from rfl, strVal, utf8_hiddenText]
    have cidLen : (i32Val (lenAsI32 (coverName n).length) ++ zeros n).length = n + 4 := by
      rw [List.length_append, zeros, List.length_replicate, i32Val, length_beBytes, Nat.add_comm]
    refine ⟨plainCreate (zeros d) (asciiText (coverName n)) .unit,
      plainCreate (i32Val (lenAsI32 (coverName n).length) ++ zeros n) ""
        (.text (asciiText hiddenText)), zeros a, zeros a ++ zeros d, _,
      fits_plainCreate zerosFit ?_ unitFits, fits_plainCreate ?_ short ?_,
      by simp [zeros], by simp [zeros], encodeCreateNode_plainCreate unit,
      (encodeCreateNode_plainCreate text).trans (congrArg Except.ok ?_)⟩
    · rw [FitsStr, utf8_coverName, length_coverName, FitsLen]
      omega
    · rw [FitsLen, cidLen]
      omega
    · show FitsStr (asciiText hiddenText)
      rw [FitsStr, utf8_hiddenText]
      exact (by decide : hiddenText.length + 1 < 2 ^ 32)
    · rw [zeros_late hd hsmall, ← hN.1, bytesVal, cidLen, strVal.eq_1 (asciiText (coverName n)),
        utf8_coverName]
      simp [coverName, hiddenText]
  · refine ⟨plainCreate (zeros d) "" .unit, plainCreate [] "" .unit, zeros a,
      zeros a ++ (i32Val (lenAsI32 d) ++ zeros (d - 4)), _, fits_plainCreate zerosFit short unitFits,
      fits_plainCreate empty short unitFits, by simp [zeros], ?_,
      encodeCreateNode_plainCreate unit,
      (encodeCreateNode_plainCreate unit).trans (congrArg Except.ok ?_)⟩
    · simp [zeros, i32Val]
      omega
    · rw [zeros_shift (not_lt.mp hsmall)]
      simp

/-- **Exactly when the seeds are safe.** Between two lengths the final hash binds
the content if and only if the lengths are the same. -/
theorem binds_iff_length_eq (sha256 : Bytes → Digest) {a b : Nat} (ha : FitsLen a)
    (hb : FitsLen b) : Binds sha256 a b ↔ a = b := by
  constructor
  · intro h
    -- whichever seed is longer takes the role of the swallowing one
    have apart : ∀ {x y : Nat}, FitsLen y → x < y → ¬ Binds sha256 x y ∧ ¬ Binds sha256 y x := by
      intro x y hy hxy
      obtain ⟨c, e, s, t, body, hc, he, hs, ht, henc, henc'⟩ :=
        exists_collision x (Nat.sub_pos_of_lt hxy) (by unfold FitsLen at *; omega)
      have hty : t.length = y := by omega
      have hst : s ≠ t := fun hst => by
        subst hst
        omega
      obtain ⟨d, hd, hd'⟩ := computeFinalHash_singleCreate_eq sha256 "V2" henc henc'
      refine ⟨fun bind => ?_, fun bind => ?_⟩
      · obtain ⟨x, hx, hx'⟩ := bind _ _ _ _ (fits_singleCreate hc) (fits_singleCreate he)
          (hs ▸ seedsOfLength_singleCreate) (hty ▸ seedsOfLength_singleCreate)
          (collisionFree_singleCreate henc henc') hd hd'
        exact hst (seed_eq_of_commitment_eq hx hx')
      · obtain ⟨x, hx, hx'⟩ := bind _ _ _ _ (fits_singleCreate he) (fits_singleCreate hc)
          (hty ▸ seedsOfLength_singleCreate) (hs ▸ seedsOfLength_singleCreate)
          (collisionFree_singleCreate henc' henc) hd' hd
        exact hst (seed_eq_of_commitment_eq hx hx').symm
    rcases lt_trichotomy a b with hlt | heq | hgt
    · exact absurd h (apart hb hlt).1
    · exact heq
    · exact absurd h (apart ha hgt).2
  · rintro rfl p q v hash hp hq kp kq hsha h h'
    obtain ⟨x, hx⟩ := Option.isSome_iff_exists.mp (isSome_commitment h)
    exact ⟨x, hx, (commitment_eq_of_computeFinalHash_eq hp hq kp kq hsha h h').symm.trans hx⟩

end Collision

section PairedHex

local instance transferHex : Hex := pairedHex

/-- At the intended 32 bytes the condition is met, and one byte off it is not. -/
theorem binds_sha256_iff :
    (Binds Sha256.hash 32 32 ↔ 32 = 32) ∧ (Binds Sha256.hash 32 33 ↔ 32 = 33) :=
  have fits : FitsLen 33 := (by decide : 33 + 1 < 2 ^ 32)
  have fits' : FitsLen 32 := (by decide : 32 + 1 < 2 ^ 32)
  ⟨binds_iff_length_eq Sha256.hash fits' fits', binds_iff_length_eq Sha256.hash fits' fits⟩

/-! ## A request that hides a transfer -/

def requestId : Identifier :=
  { packageId := "book", moduleName := "Book.Request", entityName := "UserServiceRequest" }

def transferId : Identifier :=
  { packageId := "wallet", moduleName := "Wallet.Transfer", entityName := "TransferOffer" }

def transferOffer : Create where
  lfVersion := "2.1"
  contractId := "00"
  packageName := "wallet"
  templateId := some transferId
  argument := some (.party "mallory")
  signatories := ["user"]
  stakeholders := ["user"]

/-- The part of the offer's encoding between its seed and its signatories. -/
def transferContent : Bytes :=
  bytesVal [0x00] ++ (strVal "wallet" ++ (encodeIdentifier transferId ++
    (partyTag :: strVal "mallory")))

/-- A request whose free-text argument is that part. -/
def userRequest : Create where
  lfVersion := "2.1"
  contractId := "00"
  packageName := "book"
  templateId := some requestId
  argument := some (.text (asciiText transferContent))
  signatories := ["user"]
  stakeholders := ["user"]

def requestSeed : Bytes := List.replicate 32 0x11

/-- The request's seed and the request's encoding up to the free text. -/
def transferSeed : Bytes :=
  requestSeed ++ (bytesVal [0x00] ++ (strVal "book" ++ (encodeIdentifier requestId ++
    (textTag :: i32Val (lenAsI32 transferContent.length)))))

/-- The two transactions have one final hash under every hash function, and do
not commit to the same content. -/
theorem request_and_transfer_share_hash :
    (∀ sha256 : Bytes → Digest, ∃ hash,
      computeFinalHash sha256 (singleCreate userRequest requestSeed) "V2" = .ok hash ∧
      computeFinalHash sha256 (singleCreate transferOffer transferSeed) "V2" = .ok hash) ∧
    commitment (singleCreate userRequest requestSeed) "V2" ≠
      commitment (singleCreate transferOffer transferSeed) "V2" := by
  have same : encodeCreateNode userRequest (some requestSeed) =
      encodeCreateNode transferOffer (some transferSeed) := by
    decide +kernel
  have succeeds : (encodeCreateNode userRequest (some requestSeed)).isOk := by decide +kernel
  obtain ⟨body, hbody⟩ := exists_of_isOk succeeds
  have hash := fun sha256 : Bytes → Digest =>
    computeFinalHash_singleCreate_eq sha256 "V2" hbody (same ▸ hbody)
  refine ⟨hash, fun heq => ?_⟩
  obtain ⟨_, hd, -⟩ := hash Sha256.hash
  obtain ⟨content, hc⟩ := Option.isSome_iff_exists.mp (isSome_commitment hd)
  exact absurd (seed_eq_of_commitment_eq hc (heq ▸ hc)) (by decide)

end PairedHex

end BookAgent.TxVerifier
