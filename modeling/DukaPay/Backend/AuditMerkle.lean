import DukaPay.Contractlib.Merkle
import DukaPay.Contractlib.Outcome

/-! The entries of an epoch are hashed and joined to a Merkle tree of hexadecimal digests. -/
namespace DukaPay.Backend
open Contractlib List

abbrev Bytes := List UInt8

section

def hexDigit (n : Nat) : Char := "0123456789abcdef".toList.getD n '0'

def hexValue (c : Char) : Option Nat :=
  if '0' ≤ c ∧ c ≤ '9' then some (c.toNat - '0'.toNat)
  else if 'a' ≤ c ∧ c ≤ 'f' then some (c.toNat - 'a'.toNat + 10)
  else if 'A' ≤ c ∧ c ≤ 'F' then some (c.toNat - 'A'.toNat + 10)
  else none

def hexChars (bytes : Bytes) : List Char :=
  bytes.flatMap fun b => [hexDigit (b.toNat / 16),hexDigit (b.toNat % 16)]

def toHex (bytes : Bytes) : String := String.ofList (hexChars bytes)

def decodeHex : List Char → Bytes
  | a :: b :: rest =>
    match hexValue a,hexValue b with
    | some x,some y => UInt8.ofNat (16 * x + y) :: decodeHex rest
    | _,_ => []
  | _ => []

def fromHex (text : String) : Bytes := decodeHex text.toList

lemma hexValue_hexDigit : ∀ n < 16, hexValue (hexDigit n) = some n := by decide

lemma decodeHex_hexChars (bytes) : decodeHex (hexChars bytes) = bytes := by
  induction bytes with
  | nil => rfl
  | cons b bytes ih =>
    have hh : b.toNat / 16 < 16 := by
      have := b.toNat_lt
      omega
    show decodeHex (hexDigit (b.toNat / 16) :: hexDigit (b.toNat % 16) :: hexChars bytes) = _
    rw [decodeHex,hexValue_hexDigit _ hh,hexValue_hexDigit _ (Nat.mod_lt _ (by decide)),ih]
    simp only
    rw [Nat.div_add_mod,UInt8.ofNat_toNat]

@[simp] lemma fromHex_toHex (bytes) : fromHex (toHex bytes) = bytes := by
  rw [fromHex,toHex,String.toList_ofList,decodeHex_hexChars]

lemma toHex_inj {bs bytes'} (h : toHex bs = toHex bytes') : bs = bytes' := by
  rw [← fromHex_toHex bs,h,fromHex_toHex]

end

def utf8 (text : String) : Bytes := text.toByteArray.data.toList

lemma utf8_inj {t text'} (h : utf8 t = utf8 text') : t = text' :=
  String.toByteArray_inj.mp (ByteArray.ext (Array.toList_inj.mp h))

@[simp] lemma utf8_append (t text') : utf8 (t ++ text') = utf8 t ++ utf8 text' := by
  rw [utf8,String.toByteArray_append,ByteArray.data_append,Array.toList_append]
  rfl

structure Digest where
  bytes : Bytes
  length_eq : bytes.length = 32
  deriving DecidableEq

structure Platform (Val : Type) where
  nullish : Val → Bool
  number : Val → String
  json : Val → String
  toISOString : Val → Option String
  text : Val → String
  quote : String → String

structure AuditEntry (Val : Type) where
  id : Val
  actor : Val
  action : Val
  target : Val
  payload : Val
  ipAddress : Val
  status : Val
  createdAt : Val

section
variable {Val : Type} (js : Platform Val) (sha : Bytes → Digest)

def jsonOrNull (value : Val) : String := if js.nullish value then "null" else js.json value

def canonicalAuditEntry (row : AuditEntry Val) : String :=
  let createdAt := (js.toISOString row.createdAt).getD (js.text row.createdAt)
  "\x7b\"id\":" ++ js.number row.id ++ ",\"actor\":" ++ jsonOrNull js row.actor ++
    ",\"action\":" ++ jsonOrNull js row.action ++
    ",\"target\":" ++ jsonOrNull js row.target ++
    ",\"payload\":" ++ jsonOrNull js row.payload ++
    ",\"ip_address\":" ++ jsonOrNull js row.ipAddress ++
    ",\"status\":" ++ jsonOrNull js row.status ++
    ",\"created_at\":" ++ js.quote createdAt ++ "\x7d"

def sha256 (bytes : Bytes) : String := toHex (sha bytes).bytes

def entryBytes (row : AuditEntry Val) : Bytes := utf8 (canonicalAuditEntry js row)

def hashAuditEntry (row : AuditEntry Val) : String := sha256 sha (entryBytes js row)

def pairBytes (pair : String × String) : Bytes := fromHex pair.1 ++ fromHex pair.2

def hashPair (left right : String) : String := sha256 sha (pairBytes (left,right))

def merkleRoot (leaves : List String) : String :=
  Merkle.root (hashPair sha) (sha256 sha (utf8 "")) leaves

abbrev MerkleStep := Merkle.Step String

def merkleProof (leaves : List String) (leafIndex : Int) : Except String (List MerkleStep) :=
  if h : leafIndex < 0 ∨ leafIndex ≥ leaves.length then .error "Invalid leaf index"
  else .ok (Merkle.path (hashPair sha) leaves leafIndex.toNat (by omega))

def verifyMerkleProof (leafHash : String) (proof : List MerkleStep) (expectedRoot : String) :
    Bool :=
  Merkle.climb (hashPair sha) leafHash proof = expectedRoot

def leafHashes (rows : List (AuditEntry Val)) : List String := rows.map (hashAuditEntry js sha)

def hashedInputs (rows : List (AuditEntry Val)) (r : AuditEntry Val) (proof : List MerkleStep) :
    List Bytes :=
  (r :: rows).map (entryBytes js) ++
    (Merkle.joins (hashPair sha) (leafHashes js sha rows)).map pairBytes ++
    (Merkle.visits (hashPair sha) (hashAuditEntry js sha r) proof).map
      fun visit => pairBytes (visit.2.pair visit.1)

def treeInputs (rows : List (AuditEntry Val)) : List Bytes :=
  rows.map (entryBytes js) ++ (Merkle.joins (hashPair sha) (leafHashes js sha rows)).map pairBytes

def NoCollision (inputs : List Bytes) : Prop :=
  ∀ x ∈ inputs, ∀ y ∈ inputs, sha x = sha y → x = y

def Completes (step : MerkleStep) (row : AuditEntry Val) : Prop :=
  ∃ d : Digest, pairBytes (step.pair (toHex d.bytes)) = entryBytes js row

end

section
variable {Val : Type} {js : Platform Val} {sha : Bytes → Digest}

lemma length_keys : (utf8 "\x7b\"id\":").length = 6 ∧ (utf8 ",\"actor\":").length = 9 ∧
    (utf8 ",\"action\":").length = 10 ∧ (utf8 ",\"target\":").length = 10 ∧
    (utf8 ",\"payload\":").length = 11 ∧ (utf8 ",\"ip_address\":").length = 14 ∧
    (utf8 ",\"status\":").length = 10 ∧ (utf8 ",\"created_at\":").length = 14 ∧
    (utf8 "\x7d").length = 1 := by
  decide +kernel

lemma length_entry (id actor action target payload ipAddress status createdAt) :
    64 < (utf8 ("\x7b\"id\":" ++ id ++ ",\"actor\":" ++ actor ++ ",\"action\":" ++ action ++
    ",\"target\":" ++ target ++ ",\"payload\":" ++ payload ++ ",\"ip_address\":" ++ ipAddress ++
    ",\"status\":" ++ status ++ ",\"created_at\":" ++ createdAt ++ "\x7d")).length := by
  obtain ⟨hd,ha,hc,ht,hl,hp,hs,hr,he⟩ := length_keys
  simp only [utf8_append,length_append]
  rw [hd,ha,hc,ht,hl,hp,hs,hr,he]
  omega

variable (js) in
lemma entryBytes_length (row) : 64 < (entryBytes js row).length := length_entry ..

lemma sha256_inj {x y} (h : sha256 sha x = sha256 sha y) : sha x = sha y := by
  have hb := toHex_inj h
  cases hx : sha x
  cases hy : sha y
  rw [hx,hy] at hb
  cases hb
  rfl

def IsDigest (text : String) : Prop := ∃ d : Digest, text = toHex d.bytes

lemma isDigest_sha256 (bs) : IsDigest (sha256 sha bs) := ⟨sha bs,rfl⟩

lemma IsDigest.length {t} (h : IsDigest t) : (fromHex t).length = 32 := by
  obtain ⟨d,rfl⟩ := h
  rw [fromHex_toHex]
  exact d.length_eq

lemma IsDigest.ext {t text'} (h : IsDigest t) (h' : IsDigest text')
    (he : fromHex t = fromHex text') : t = text' := by
  obtain ⟨_,rfl⟩ := h
  obtain ⟨_,rfl⟩ := h'
  rw [fromHex_toHex,fromHex_toHex] at he
  rw [he]

variable {rows : List (AuditEntry Val)}

lemma isDigest_of_inTree {d}
    (h : Merkle.InTree (hashPair sha) (leafHashes js sha rows) d) : IsDigest d := by
  rcases h with h | ⟨p,-,rfl⟩
  · obtain ⟨_,-,rfl⟩ := mem_map.mp h
    exact isDigest_sha256 _
  · exact isDigest_sha256 _

variable {step : MerkleStep}

lemma pairBytes_left (h : step.side = .left) (current) :
    pairBytes (step.pair current) = fromHex step.sibling ++ fromHex current := by
  simp [pairBytes,Merkle.Step.pair,h]

lemma pairBytes_right (h : step.side = .right) (cur) :
    pairBytes (step.pair cur) = fromHex cur ++ fromHex step.sibling := by
  simp [pairBytes,Merkle.Step.pair,h]

lemma length_pairBytes (step : MerkleStep) (cur) : (pairBytes (step.pair cur)).length =
    (fromHex step.sibling).length + (fromHex cur).length := by
  cases hs : step.side with
  | left => rw [pairBytes_left hs,length_append]
  | right => rw [pairBytes_right hs,length_append,Nat.add_comm]

lemma not_completes_of_length (h : (fromHex step.sibling).length ≤ 32) (row) :
    ¬ Completes js step row := by
  rintro ⟨d,hd⟩
  have hl := entryBytes_length js row
  rw [← hd,length_pairBytes,fromHex_toHex,d.length_eq] at hl
  omega

/-- **One step down**: what was joined with a sibling to a node of the tree is in the tree, unless
the sibling completes the text of a row. -/
lemma inTree_of_advance {inputs} (hn : NoCollision sha inputs)
    (he : ∀ row ∈ rows, entryBytes js row ∈ inputs)
    (hj : ∀ p ∈ Merkle.joins (hashPair sha) (leafHashes js sha rows), pairBytes p ∈ inputs)
    {current} (hc : IsDigest current) (hs : ∀ row ∈ rows, ¬ Completes js step row)
    (hp : pairBytes (step.pair current) ∈ inputs)
    (h : Merkle.InTree (hashPair sha) (leafHashes js sha rows)
    (Merkle.advance (hashPair sha) current step)) :
    Merkle.InTree (hashPair sha) (leafHashes js sha rows) current := by
  rcases h with h | ⟨q,hq,heq⟩
  · -- a leaf would be the text of a row that the sibling completes
    obtain ⟨row,hr,heq⟩ := mem_map.mp h
    have hb := hn _ hp _ (he row hr) (sha256_inj heq.symm)
    obtain ⟨d,rfl⟩ := hc
    exact absurd ⟨d,hb⟩ (hs row hr)
  have hb : pairBytes (step.pair current) = pairBytes q := hn _ hp _ (hj q hq) (sha256_inj heq)
  obtain ⟨ht,hg⟩ := Merkle.inTree_of_join hq
  cases hd : step.side with
  | left =>
    rw [pairBytes_left hd,pairBytes] at hb
    have hl := hc.length.trans (isDigest_of_inTree hg).length.symm
    have hsn := (append_inj' hb hl).2
    exact hc.ext (isDigest_of_inTree hg) hsn ▸ hg
  | right =>
    rw [pairBytes_right hd,pairBytes] at hb
    have hl := hc.length.trans (isDigest_of_inTree ht).length.symm
    have hf := (append_inj hb hl).1
    exact hc.ext (isDigest_of_inTree ht) hf ▸ ht

/-- The proof of each leaf verifies against the root; and if a proof verifies for an entry and no
sibling completes the text of a row, the entry has the text of a row, unless a hash collides. -/
theorem audit_proofs (js : Platform Val) (sha : Bytes → Digest) (rows : List (AuditEntry Val))
    (hrows : rows ≠ []) : (∀ (i : Nat) (row : AuditEntry Val), rows[i]? = some row →
      ∃ proof, merkleProof sha (leafHashes js sha rows) i = .ok proof ∧
      verifyMerkleProof sha (hashAuditEntry js sha row) proof
      (merkleRoot sha (leafHashes js sha rows)) = true) ∧
    ∀ (r : AuditEntry Val) (proof : List MerkleStep),
      (∀ step ∈ proof, ∀ row ∈ rows, ¬ Completes js step row) →
      NoCollision sha (hashedInputs js sha rows r proof) →
      verifyMerkleProof sha (hashAuditEntry js sha r) proof
      (merkleRoot sha (leafHashes js sha rows)) = true →
      ∃ row ∈ rows, canonicalAuditEntry js r = canonicalAuditEntry js row := by
  constructor
  · intro i row hi
    obtain ⟨hlt,hw⟩ := List.getElem?_eq_some_iff.mp hi
    have hln : i < (leafHashes js sha rows).length := by
      rw [leafHashes,List.length_map]
      exact hlt
    have hl : hashAuditEntry js sha row = (leafHashes js sha rows)[i] := by
      simp only [leafHashes,List.getElem_map,hw]
    refine ⟨Merkle.path (hashPair sha) (leafHashes js sha rows) i hln,?_,?_⟩
    · rw [merkleProof,dif_neg (by omega)]
      rfl
    · rw [verifyMerkleProof,hl,decide_eq_true_eq]
      exact Merkle.climb_path _ i hln
  · intro r proof hs hn hv
    rw [verifyMerkleProof,decide_eq_true_eq] at hv
    have hu : ∀ bytes, bytes ∈ hashedInputs js sha rows r proof ↔
        ((∃ row ∈ r :: rows, entryBytes js row = bytes) ∨
          ∃ p ∈ Merkle.joins (hashPair sha) (leafHashes js sha rows), pairBytes p = bytes) ∨
        ∃ visit ∈ Merkle.visits (hashPair sha) (hashAuditEntry js sha r) proof,
          pairBytes (visit.2.pair visit.1) = bytes := by
      intro bytes
      rw [hashedInputs,List.mem_append,List.mem_append,List.mem_map,List.mem_map,List.mem_map]
    have he : ∀ row ∈ r :: rows, entryBytes js row ∈ hashedInputs js sha rows r proof :=
      fun row hw => (hu _).mpr (.inl (.inl ⟨row,hw,rfl⟩))
    have hj : ∀ p ∈ Merkle.joins (hashPair sha) (leafHashes js sha rows),
        pairBytes p ∈ hashedInputs js sha rows r proof :=
      fun p hp => (hu _).mpr (.inl (.inr ⟨p,hp,rfl⟩))
    have ho : Merkle.InTree (hashPair sha) (leafHashes js sha rows)
        (Merkle.climb (hashPair sha) (hashAuditEntry js sha r) proof) := by
      rw [hv]
      exact Merkle.root_inTree fun hnl => hrows (List.map_eq_nil_iff.mp hnl)
    have hl : Merkle.InTree (hashPair sha) (leafHashes js sha rows) (hashAuditEntry js sha r) := by
      refine Merkle.of_climb (fun visit ht h => ?_) ho
      exact inTree_of_advance hn (fun row hw => he row (List.mem_cons_of_mem _ hw)) hj
        (Merkle.visits_forall (fun _ _ => isDigest_sha256 _) (isDigest_sha256 _) visit ht)
        (hs visit.2 (Merkle.mem_of_mem_visits ht))
        ((hu _).mpr (.inr ⟨visit,ht,rfl⟩)) h
    rcases hl with hl | ⟨p,hp,heq⟩
    · obtain ⟨row,hw,heq⟩ := List.mem_map.mp hl
      have hb := hn _ (he row (List.mem_cons_of_mem _ hw)) _
        (he r (List.mem_cons_self ..)) (sha256_inj heq)
      exact ⟨row,hw,(utf8_inj hb).symm⟩
    · -- an inner node is the hash of two digests, which are shorter than an entry
      have hb : entryBytes js r = pairBytes p :=
        hn _ (he r (List.mem_cons_self ..)) _ (hj p hp) (sha256_inj heq)
      obtain ⟨hf,hr⟩ := Merkle.inTree_of_join hp
      have hg := entryBytes_length js r
      rw [hb,pairBytes,List.length_append,(isDigest_of_inTree hf).length,
        (isDigest_of_inTree hr).length] at hg
      omega

/-- **Commitment**: the root and the number of leaves determine the texts of the entries, unless a
hash collides. -/
theorem merkle_commits (js : Platform Val) (sha : Bytes → Digest)
    (rows rows' : List (AuditEntry Val)) (hl : rows.length = rows'.length)
    (hn : NoCollision sha (treeInputs js sha rows ++ treeInputs js sha rows'))
    (h : merkleRoot sha (leafHashes js sha rows) = merkleRoot sha (leafHashes js sha rows')) :
    rows.map (canonicalAuditEntry js) = rows'.map (canonicalAuditEntry js) := by
  have hu : ∀ x ∈ treeInputs js sha rows, ∀ y ∈ treeInputs js sha rows',
      sha256 sha x = sha256 sha y → x = y := fun x hx y hy he =>
    hn x (mem_append_left _ hx) y (mem_append_right _ hy) (sha256_inj he)
  have hs : leafHashes js sha rows = leafHashes js sha rows' := by
    refine Merkle.eq_of_root_eq (by simpa [leafHashes]) (fun p hp q hq he => ?_) h
    have hb := hu _ (mem_append_right _ (mem_map_of_mem hp)) _
      (mem_append_right _ (mem_map_of_mem hq)) he
    obtain ⟨h1,h2⟩ := (Merkle.inTree_of_join hp).imp isDigest_of_inTree isDigest_of_inTree
    obtain ⟨h3,h4⟩ := (Merkle.inTree_of_join hq).imp isDigest_of_inTree isDigest_of_inTree
    have ha := append_inj hb (h1.length.trans h3.length.symm)
    exact Prod.ext (h1.ext h3 ha.1) (h2.ext h4 ha.2)
  have ht : rows.map (entryBytes js) = rows'.map (entryBytes js) := by
    refine Merkle.map_inj_of (f := sha256 sha) (fun x hx y hy => ?_) (by rwa [map_map,map_map])
    exact hu x (mem_append_left _ hx) y (mem_append_left _ hy)
  have hf : Function.Injective utf8 := fun _ _ => utf8_inj
  exact hf.list_map (by rwa [map_map,map_map])

end

inductive PlainColumn
  | null
  | number (n : Int)
  | string (s : String)
  | date (iso : String)
  deriving DecidableEq

def plainPlatform : Platform PlainColumn where
  nullish value := decide (value = .null)
  number
    | .null => "0"
    | .number n => toString n
    | _ => "null"
  json
    | .null => "null"
    | .number n => toString n
    | .string s => "\"" ++ s ++ "\""
    | .date iso => "\"" ++ iso ++ "\""
  toISOString
    | .date iso => some iso
    | _ => none
  text
    | .null => "null"
    | .number n => toString n
    | .string s => s
    | .date iso => iso
  quote s := "\"" ++ s ++ "\""

def approvalEntry (id : Int) (loan : String) : AuditEntry PlainColumn where
  id := .number id
  actor := .string "SYSTEM"
  action := .string "loan_approved"
  target := .string loan
  payload := .null
  ipAddress := .null
  status := .number 200
  createdAt := .date "2026-01-01T00:00:00.000Z"

def firstApproval : AuditEntry PlainColumn := approvalEntry 1 "loan:1"

def secondApproval : AuditEntry PlainColumn := approvalEntry 2 "loan:2"

def firstDigest : Digest :=
  ⟨[64,133,202,220,108,208,128,23,54,33,59,127,180,40,189,232,
      222,160,133,163,240,63,27,134,171,119,93,179,86,156,250,147],rfl⟩

def secondDigest : Digest :=
  ⟨[188,202,235,185,160,225,76,243,188,173,243,178,69,162,111,213,
      154,192,228,164,154,67,148,72,207,69,59,62,52,43,224,103],rfl⟩

def rootDigest : Digest :=
  ⟨[190,219,164,101,12,126,201,241,245,46,52,61,33,4,174,56,
      226,115,41,20,14,218,163,119,207,20,45,136,43,28,158,7],rfl⟩

def plainSha (bytes : Bytes) : Digest :=
  if bytes = entryBytes plainPlatform firstApproval then firstDigest
  else if bytes = entryBytes plainPlatform secondApproval then secondDigest
  else rootDigest

def secondProof : List MerkleStep := [⟨.left,toHex firstDigest.bytes⟩]

lemma entryBytes_approvals :
    entryBytes plainPlatform firstApproval ≠ entryBytes plainPlatform secondApproval := by
  intro h
  have hd : (entryBytes plainPlatform firstApproval)[6]? =
      (entryBytes plainPlatform secondApproval)[6]? := by rw [h]
  revert hd
  decide +kernel

lemma plainSha_first : plainSha (entryBytes plainPlatform firstApproval) = firstDigest :=
  if_pos rfl

lemma plainSha_second : plainSha (entryBytes plainPlatform secondApproval) = secondDigest := by
  rw [plainSha,if_neg entryBytes_approvals.symm,if_pos rfl]

lemma plainSha_root : plainSha (firstDigest.bytes ++ secondDigest.bytes) = rootDigest := by
  have hn : ∀ row, firstDigest.bytes ++ secondDigest.bytes ≠ entryBytes plainPlatform row := by
    intro row h
    have hl := entryBytes_length plainPlatform row
    rw [← h] at hl
    exact absurd hl (by decide)
  rw [plainSha,if_neg (hn _),if_neg (hn _)]

lemma noCollision_second : NoCollision plainSha
    (hashedInputs plainPlatform plainSha [firstApproval,secondApproval] secondApproval
    secondProof) := by
  have hn : hashedInputs plainPlatform plainSha [firstApproval,secondApproval] secondApproval
      secondProof =
      [entryBytes plainPlatform secondApproval,entryBytes plainPlatform firstApproval,
        entryBytes plainPlatform secondApproval,firstDigest.bytes ++ secondDigest.bytes,
        firstDigest.bytes ++ secondDigest.bytes] := by
    simp [hashedInputs,leafHashes,hashAuditEntry,sha256,secondProof,Merkle.visits,
      Merkle.Step.pair,pairBytes,plainSha_first,plainSha_second]
  have hf : firstDigest ≠ secondDigest := by decide
  have hf' : firstDigest ≠ rootDigest := by decide
  have hs : secondDigest ≠ rootDigest := by decide
  rw [hn]
  simp [NoCollision,plainSha_first,plainSha_second,plainSha_root,hf,hf',hs,hf.symm,hf'.symm,hs.symm]

lemma secondProof_verifies :
    verifyMerkleProof plainSha (hashAuditEntry plainPlatform plainSha secondApproval) secondProof
    (merkleRoot plainSha (leafHashes plainPlatform plainSha [firstApproval,secondApproval])) =
    true := by
  simp [verifyMerkleProof,merkleRoot,leafHashes,hashAuditEntry,sha256,secondProof,
    Merkle.climb,Merkle.advance,Merkle.Step.pair,plainSha_first,plainSha_second]

theorem audit_proofs_two : (∃ proof, merkleProof plainSha
    (leafHashes plainPlatform plainSha [firstApproval,secondApproval]) 1 = .ok proof ∧
    verifyMerkleProof plainSha (hashAuditEntry plainPlatform plainSha secondApproval) proof
    (merkleRoot plainSha (leafHashes plainPlatform plainSha [firstApproval,secondApproval])) =
    true) ∧
    ∃ row ∈ [firstApproval,secondApproval], canonicalAuditEntry plainPlatform secondApproval =
    canonicalAuditEntry plainPlatform row := by
  obtain ⟨hc,ho⟩ := audit_proofs plainPlatform plainSha [firstApproval,secondApproval]
    (cons_ne_nil _ _)
  have hs : ∀ step ∈ secondProof, ∀ row ∈ [firstApproval,secondApproval],
      ¬ Completes plainPlatform step row := by
    rw [secondProof,forall_mem_singleton]
    exact fun row _ => not_completes_of_length (by rw [fromHex_toHex]; decide) row
  exact ⟨hc 1 secondApproval rfl,
    ho secondApproval secondProof hs noCollision_second secondProof_verifies⟩

def textDigest : Digest :=
  ⟨(entryBytes plainPlatform firstApproval).take 32,by
    rw [List.length_take]
    exact Nat.min_eq_left (Nat.le_of_lt (Nat.lt_trans (by decide) (entryBytes_length _ _)))⟩

def craftedSha (bytes : Bytes) : Digest :=
  if bytes = entryBytes plainPlatform secondApproval then textDigest else firstDigest

def forgedProof : List MerkleStep :=
  [⟨.right,toHex ((entryBytes plainPlatform firstApproval).drop 32)⟩]

lemma craftedSha_first : craftedSha (entryBytes plainPlatform firstApproval) = firstDigest :=
  if_neg entryBytes_approvals

lemma craftedSha_second : craftedSha (entryBytes plainPlatform secondApproval) = textDigest :=
  if_pos rfl

lemma textDigest_ne : textDigest ≠ firstDigest := by
  intro h
  have hb : ((entryBytes plainPlatform firstApproval).take 32)[0]? = firstDigest.bytes[0]? := by
    rw [← h,textDigest]
  revert hb
  decide +kernel

/-- The sibling completes the text of the only row: the proof verifies for another entry. -/
theorem forged_proof : NoCollision craftedSha
    (hashedInputs plainPlatform craftedSha [firstApproval] secondApproval forgedProof) ∧
    verifyMerkleProof craftedSha (hashAuditEntry plainPlatform craftedSha secondApproval)
    forgedProof (merkleRoot craftedSha (leafHashes plainPlatform craftedSha [firstApproval])) = true ∧
    ∀ row ∈ [firstApproval], canonicalAuditEntry plainPlatform secondApproval ≠
    canonicalAuditEntry plainPlatform row := by
  have ht : textDigest.bytes ++ (entryBytes plainPlatform firstApproval).drop 32 =
      entryBytes plainPlatform firstApproval := take_append_drop ..
  refine ⟨?_,?_,?_⟩
  · have hn : hashedInputs plainPlatform craftedSha [firstApproval] secondApproval
        forgedProof = [entryBytes plainPlatform secondApproval,entryBytes plainPlatform firstApproval,
          entryBytes plainPlatform firstApproval] := by
      simp [hashedInputs,leafHashes,hashAuditEntry,sha256,forgedProof,Merkle.visits,
        Merkle.Step.pair,pairBytes,craftedSha_second,ht]
    rw [hn]
    simp [NoCollision,craftedSha_first,craftedSha_second,textDigest_ne,textDigest_ne.symm]
  · simp [verifyMerkleProof,merkleRoot,leafHashes,hashAuditEntry,sha256,forgedProof,Merkle.climb,
      Merkle.advance,Merkle.Step.pair,hashPair,pairBytes,craftedSha_first,craftedSha_second,ht]
  · rw [forall_mem_singleton]
    exact fun h => entryBytes_approvals (congrArg utf8 h).symm

lemma treeInputs_approvals {row} (he : entryBytes plainPlatform row =
    entryBytes plainPlatform firstApproval) :
    treeInputs plainPlatform plainSha [row,secondApproval] =
    [entryBytes plainPlatform firstApproval,entryBytes plainPlatform secondApproval,
      firstDigest.bytes ++ secondDigest.bytes] := by
  simp [treeInputs,leafHashes,hashAuditEntry,sha256,pairBytes,he,plainSha_first,
    plainSha_second]

/-- Two entries, of which the first has its time as a date or as a text. -/
theorem merkle_commits_two :
    let row := { firstApproval with createdAt := .string "2026-01-01T00:00:00.000Z" }
    [firstApproval,secondApproval].map (canonicalAuditEntry plainPlatform) =
      [row,secondApproval].map (canonicalAuditEntry plainPlatform) := by
  intro row
  have he : entryBytes plainPlatform row = entryBytes plainPlatform firstApproval := rfl
  have hf : firstDigest ≠ secondDigest := by decide
  have hf' : firstDigest ≠ rootDigest := by decide
  have hs : secondDigest ≠ rootDigest := by decide
  refine merkle_commits plainPlatform plainSha _ _ rfl ?_ ?_
  · rw [treeInputs_approvals rfl,treeInputs_approvals he]
    simp [NoCollision,plainSha_first,plainSha_second,plainSha_root,hf,hf',hs,hf.symm,hf'.symm,
      hs.symm]
  · simp [leafHashes,hashAuditEntry,he]

end DukaPay.Backend
