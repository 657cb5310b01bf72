import DukaPay.JavaScript
import DukaPay.Backend.AuditMerkle

/-! A field is encrypted with a key of its own, which is wrapped by the key of the service, and
written as a token of seven parts with colons in between. -/
namespace DukaPay.Backend.Pii
open JavaScript List Option

/-- Unicode scalar values, so that there are no lone surrogates. -/
abbrev Text := List Char

structure Runtime where
  encrypt : Bytes → Bytes → Bytes → Bytes × Bytes
  decrypt : Bytes → Bytes → Bytes → Bytes → Option Bytes
  utf8Encode : Text → Bytes
  utf8Decode : Bytes → Text
  numberText : Int → Text
  parseInt : Text → Option Int

def exponentBound : Nat := 1000000000000000000000

/-- The integers that a number of JavaScript holds. -/
def Representable (n : Nat) : Prop := ∃ m < 2 ^ 53, ∃ e, n = m * 2 ^ e

abbrev Version := { n : Nat // Representable n }

/-- Decryption inverts encryption and keeps lengths; `parseInt` stops at an exponent. -/
structure Runtime.Documented (R : Runtime) : Prop where
  tag : ∀ key nonce bytes, (R.encrypt key nonce bytes).2.length = 16
  decrypt : ∀ key nonce bytes, key.length = 32 → nonce.length = 12 →
    R.decrypt key nonce (R.encrypt key nonce bytes).1 (R.encrypt key nonce bytes).2 = some bytes
  decrypt_length : ∀ key nonce bytes tag bytes', R.decrypt key nonce bytes tag = some bytes' →
    bytes'.length = bytes.length
  utf8 : ∀ text, R.utf8Decode (R.utf8Encode text) = text
  utf8_length : ∀ bytes, (R.utf8Decode bytes).length ≤ bytes.length
  number_colon : ∀ n : Nat, ':' ∉ R.numberText n
  number : ∀ n : Nat, Representable n → n < exponentBound →
    R.parseInt (R.numberText n) = some (n : Int)
  exponent : ∀ n : Nat, Representable n → exponentBound ≤ n →
    ∃ d : Nat, d < 10 ∧ R.parseInt (R.numberText n) = some (d : Int)

structure Draw where
  dek : Bytes
  nonce : Bytes
  wrapNonce : Bytes
  createdAt : Text
  dek_length : dek.length = 32
  nonce_length : nonce.length = 12
  wrapNonce_length : wrapNonce.length = 12
  createdAt_ne : createdAt ≠ []

structure Env where
  kek : Bytes
  kekId : Text
  kek_length : kek.length = 32

structure EncryptedField where
  ciphertext : Bytes
  gcm_nonce : Bytes
  dek_wrapped : Bytes
  dek_kek_id : Text
  key_version : Option Int
  created_at : Option Text

section
variable (R : Runtime) (E : Env)

def wrapDek (draw : Draw) : Bytes :=
  draw.wrapNonce ++ (R.encrypt E.kek draw.wrapNonce draw.dek).2 ++
    (R.encrypt E.kek draw.wrapNonce draw.dek).1

def unwrapDek (dekWrapped : Bytes) : Except String Bytes :=
  match R.decrypt E.kek (dekWrapped.take 12) (dekWrapped.drop 28) ((dekWrapped.take 28).drop 12) with
  | some dek => .ok dek
  | none => .error "Unsupported state or unable to authenticate data"

def encryptField (draw : Draw) (plaintext : Text) (kekId : Option Text) (keyVersion : Option Int) :
    EncryptedField where
  ciphertext := (R.encrypt draw.dek draw.nonce (R.utf8Encode plaintext)).1 ++
    (R.encrypt draw.dek draw.nonce (R.utf8Encode plaintext)).2
  gcm_nonce := draw.nonce
  dek_wrapped := wrapDek R E draw
  dek_kek_id := kekId.getD E.kekId
  key_version := some (keyVersion.getD 1)
  created_at := some draw.createdAt

def relative (length : Nat) (i : Int) : Nat := if i < 0 then (length + i).toNat else i.toNat

def decryptField (field : EncryptedField) : Except String Text := do
  let dek ← unwrapDek R E field.dek_wrapped
  let split := relative field.ciphertext.length (field.ciphertext.length - 16)
  match R.decrypt dek field.gcm_nonce (field.ciphertext.take split) (field.ciphertext.drop split) with
  | some bytes => .ok (R.utf8Decode bytes)
  | none => .error "Unsupported state or unable to authenticate data"

def reencryptField (draw : Draw) (field : EncryptedField) (newKekId : Option Text)
    (newKeyVersion : Option Int) : Except String EncryptedField := do
  let plaintext ← decryptField R E field
  let next := match field.key_version with
    | some version => if version = 0 then 2 else version + 1
    | none => 2
  pure (encryptField R E draw plaintext newKekId (some (newKeyVersion.getD next)))

def tokenStart : Text := ['p','i','i',':','v']

def defaultKek : Text := "default-kek".toList

def serializeEncryptedField (now : Text) (field : EncryptedField) : Text :=
  let kekId := if field.dek_kek_id = [] then defaultKek else field.dek_kek_id
  tokenStart ++ R.numberText (field.key_version.getD 1) ++ ':' :: (kekId ++
    ':' :: (hexChars field.gcm_nonce ++ ':' :: (hexChars field.dek_wrapped ++
      ':' :: (hexChars field.ciphertext ++
        ':' :: hexChars (R.utf8Encode (field.created_at.getD now))))))

def deserializeEncryptedField (payload : Text) : Except String EncryptedField :=
  if tokenStart.isPrefixOf payload then
    match split ':' payload with
    | _ :: version :: kekId :: nonce :: wrapped :: cipher :: rest => .ok {
        ciphertext := decodeHex cipher
        gcm_nonce := decodeHex nonce
        dek_wrapped := decodeHex wrapped
        dek_kek_id := kekId
        key_version := some ((R.parseInt (version.erase 'v')).getD 1)
        created_at := (rest.head?.filter fun text => text ≠ []).map fun text =>
          R.utf8Decode (decodeHex text) }
    | _ => .error "Malformed encrypted PII payload"
  else .error "Invalid encrypted PII payload format"

inductive Value
  | text (text : Text)
  | field (field : EncryptedField)

def reencryptValue (newKekId : Option Text) (newKeyVersion : Option Int) (draw : Draw) :
    Value → Except String EncryptedField
  | .text text =>
    if tokenStart.isPrefixOf text then do
      let field ← deserializeEncryptedField R text
      reencryptField R E draw field newKekId newKeyVersion
    else .ok (encryptField R E draw text newKekId newKeyVersion)
  | .field field => reencryptField R E draw field newKekId newKeyVersion

def reencryptRecord (draws : String → Draw) (newKekId : Option Text) (newKeyVersion : Option Int) :
    List (String × Value) → Except String (List (String × EncryptedField))
  | [] => .ok []
  | (name,value) :: fields => do
    let field ← reencryptValue R E newKekId newKeyVersion (draws name) value
    let rest ← reencryptRecord draws newKekId newKeyVersion fields
    pure ((name,field) :: rest)

inductive Origin
  | plaintext (text : Text)
  | token (draw : Draw) (text kekId : Text) (keyVersion : Version)
  | structured (draw : Draw) (text kekId : Text) (keyVersion : Version)

def Origin.text : Origin → Text
  | .plaintext text | .token _ text _ _ | .structured _ text _ _ => text

def Origin.value (now : Text) : Origin → Value
  | .plaintext text => .text text
  | .token draw text kekId keyVersion => .text (serializeEncryptedField R now
      (encryptField R E draw text (some kekId) (some keyVersion.val)))
  | .structured draw text kekId keyVersion =>
    .field (encryptField R E draw text (some kekId) (some keyVersion.val))

def Origin.RoundTrips (now : Text) : Origin → Prop
  | .token draw text kekId keyVersion => ∃ field, deserializeEncryptedField R
      (serializeEncryptedField R now
        (encryptField R E draw text (some kekId) (some keyVersion.val))) = .ok field ∧
      decryptField R E field = .ok text ∧ field.dek_kek_id = kekId ∧
      field.key_version = some keyVersion.val ∧ field.created_at = some draw.createdAt
  | _ => True

/-- `reencryptRecord` returns a ciphertext of the original plaintext for every field. -/
def Reencrypts (now : Text) (draws : String → Draw) (newKekId : Option Text)
    (newKeyVersion : Option Int) (record : List (String × Origin)) : Prop :=
  ∃ result, reencryptRecord R E draws newKekId newKeyVersion
      (record.map fun entry => (entry.1,entry.2.value R E now)) = .ok result ∧
    List.Forall₂ (fun entry field => field.1 = entry.1 ∧
      decryptField R E field.2 = .ok entry.2.text) record result

end

def Origin.Clear : Origin → Prop
  | .plaintext text => tokenStart.isPrefixOf text = false
  | .token _ _ kekId keyVersion => kekId ≠ [] ∧ ':' ∉ kekId ∧ keyVersion.val < exponentBound
  | .structured .. => True

section

lemma colon_notMem_hexChars (bytes) : ':' ∉ hexChars bytes := by
  have hd : ∀ n < 16, hexDigit n ≠ ':' := by decide
  intro hm
  obtain ⟨b,-,hb⟩ := mem_flatMap.mp hm
  have hl := b.toNat_lt
  rw [mem_cons,mem_singleton] at hb
  rcases hb with hb | hb
  · exact hd _ (by omega) hb.symm
  · exact hd _ (by omega) hb.symm

lemma length_decodeHex (t) : 2 * (decodeHex t).length ≤ t.length := by
  fun_induction decodeHex t with
  | case1 a b rest x y hx hy ih =>
    simp only [length_cons]
    omega
  | case2 => simp
  | case3 => simp

lemma mem_split {t part} (h : part ∈ split ':' t) : ':' ∉ part ∧ part.length ≤ t.length := by
  induction t generalizing part with
  | nil =>
    cases mem_singleton.mp h
    simp
  | cons c t ih =>
    rw [split] at h
    split at h
    · rcases mem_cons.mp h with rfl | h
      · simp
      · exact ⟨(ih h).1,Nat.le_succ_of_le (ih h).2⟩
    · next hc =>
      split at h
      · cases mem_singleton.mp h
        exact ⟨by simpa using fun he => hc he.symm,by simp⟩
      · next first parts hs =>
        rw [hs] at ih
        rcases mem_cons.mp h with rfl | h
        · obtain ⟨hl,hn⟩ := ih mem_cons_self
          exact ⟨by simpa [hl] using fun he => hc he.symm,Nat.succ_le_succ hn⟩
        · obtain ⟨hl,hn⟩ := ih (mem_cons_of_mem first h)
          exact ⟨hl,Nat.le_succ_of_le hn⟩

end

section
variable {R : Runtime} {E : Env} (hR : R.Documented)

include hR

lemma unwrapDek_wrapDek (draw) : unwrapDek R E (wrapDek R E draw) = .ok draw.dek := by
  have ht := hR.tag E.kek draw.wrapNonce draw.dek
  have hn := draw.wrapNonce_length
  have hk : (wrapDek R E draw).take 12 = draw.wrapNonce := by
    rw [wrapDek,append_assoc,take_left' hn]
  have hh : (draw.wrapNonce ++ (R.encrypt E.kek draw.wrapNonce draw.dek).2).length = 28 := by
    rw [length_append,hn,ht]
  rw [unwrapDek,hk,wrapDek,drop_left' hh,take_left' hh,
    drop_left' hn,hR.decrypt _ _ _ E.kek_length hn]

lemma decryptField_encryptField (draw text kekId keyVersion) :
    decryptField R E (encryptField R E draw text kekId keyVersion) = .ok text := by
  let field := encryptField R E draw text kekId keyVersion
  let encrypted := R.encrypt draw.dek draw.nonce (R.utf8Encode text)
  have ht : encrypted.2.length = 16 := hR.tag ..
  have hs : relative field.ciphertext.length (field.ciphertext.length - 16) =
      encrypted.1.length := by
    have hl : field.ciphertext.length = encrypted.1.length + 16 := by
      rw [← ht]
      exact length_append
    rw [relative,hl]
    split <;> omega
  show (unwrapDek R E (wrapDek R E draw) >>= _) = _
  rw [unwrapDek_wrapDek hR]
  show (match R.decrypt draw.dek draw.nonce (field.ciphertext.take _) (field.ciphertext.drop _) with
    | some bs => _
    | none => _) = _
  rw [hs]
  show (match R.decrypt draw.dek draw.nonce ((encrypted.1 ++ encrypted.2).take _)
      ((encrypted.1 ++ encrypted.2).drop _) with
    | some bs => _
    | none => _) = _
  rw [take_left' rfl,drop_left' rfl,hR.decrypt _ _ _ draw.dek_length draw.nonce_length]
  exact congrArg Except.ok (hR.utf8 text)

lemma decryptField_reencryptField {draw field text} (newKekId newKeyVersion)
    (h : decryptField R E field = .ok text) :
    ∃ field', reencryptField R E draw field newKekId newKeyVersion = .ok field' ∧
    decryptField R E field' = .ok text := by
  rw [reencryptField,h]
  exact ⟨_,rfl,decryptField_encryptField hR ..⟩

end

section
variable {R : Runtime} {E : Env} {now : Text}

def writtenKek (kekId : Text) : Text := if kekId = [] then defaultKek else kekId

def tokenTail (R : Runtime) (now : Text) (field : EncryptedField) : Text :=
  hexChars field.gcm_nonce ++ ':' :: (hexChars field.dek_wrapped ++ ':' ::
    (hexChars field.ciphertext ++ ':' :: hexChars (R.utf8Encode (field.created_at.getD now))))

lemma split_token (hR : R.Documented) (now : Text) (fld : EncryptedField) (version : Nat)
    (hv : fld.key_version = some (version : Int)) :
    split ':' (serializeEncryptedField R now fld) = ['p','i','i'] ::
    ('v' :: R.numberText version) ::
    split ':' (writtenKek fld.dek_kek_id ++ ':' :: tokenTail R now fld) := by
  have hn : ':' ∉ 'v' :: R.numberText version := by simpa using hR.number_colon version
  have hs : serializeEncryptedField R now fld = ['p','i','i'] ++ ':' ::
      (('v' :: R.numberText version) ++ ':' ::
        (writtenKek fld.dek_kek_id ++ ':' :: tokenTail R now fld)) := by
    simp [serializeEncryptedField,hv,tokenStart,writtenKek,tokenTail]
  rw [hs,split_append (by decide),split_append hn]

lemma split_tokenTail (fld) :
    split ':' (tokenTail R now fld) = [hexChars fld.gcm_nonce,hexChars fld.dek_wrapped,
    hexChars fld.ciphertext,hexChars (R.utf8Encode (fld.created_at.getD now))] := by
  rw [tokenTail,split_append (colon_notMem_hexChars _),split_append (colon_notMem_hexChars _),
    split_append (colon_notMem_hexChars _),split_of_notMem (colon_notMem_hexChars _)]

lemma isPrefixOf_serialize (fld) :
    tokenStart.isPrefixOf (serializeEncryptedField R now fld) = true := by
  rw [serializeEncryptedField,append_assoc, isPrefixOf_iff_prefix]
  exact prefix_append _ _

lemma deserialize_eq_ok {p fld} (h : deserializeEncryptedField R p = .ok fld) :
    ∃ start ver nonce wrapped cipher rest, split ':' p =
    start :: ver :: fld.dek_kek_id :: nonce :: wrapped :: cipher :: rest ∧ fld.key_version =
    some ((R.parseInt (ver.erase 'v')).getD 1) ∧ fld.ciphertext = decodeHex cipher := by
  rw [deserializeEncryptedField] at h
  split at h
  · split at h
    · next start ver kekId nonce wrapped cipher rest hs =>
      cases h
      exact ⟨start,ver,nonce,wrapped,cipher,rest,hs,rfl,rfl⟩
    · cases h
  · cases h

lemma roundTrips_of_clear (hR : R.Documented) {draw t kekId version}
    (h : (Origin.token draw t kekId version).Clear) :
    (Origin.token draw t kekId version).RoundTrips R E now := by
  obtain ⟨hn,hc,hb⟩ := h
  let field := encryptField R E draw t (some kekId) (some version.val)
  have hkk : writtenKek field.dek_kek_id = kekId := if_neg hn
  have hs := split_token hR now field version.val rfl
  rw [hkk,split_append hc,split_tokenTail] at hs
  have hr : hexChars (R.utf8Encode draw.createdAt) ≠ [] := by
    intro hnl
    have hk := decodeHex_hexChars (R.utf8Encode draw.createdAt)
    have ht := hR.utf8 draw.createdAt
    rw [← hk,hnl] at ht
    have hl := hR.utf8_length (decodeHex [])
    rw [ht] at hl
    exact draw.createdAt_ne (length_eq_zero_iff.mp (Nat.le_zero.mp hl))
  refine ⟨{ field with created_at := some draw.createdAt },?_,?_,rfl,rfl,rfl⟩
  · rw [deserializeEncryptedField,if_pos (isPrefixOf_serialize field),hs]
    have hv : ('v' :: R.numberText version.val).erase 'v' = R.numberText version.val :=
      erase_cons_head ..
    simp only [decodeHex_hexChars,hv,hR.number version.val version.property hb,getD_some,head?_cons]
    show Except.ok (_ : EncryptedField) = _
    simp [field,encryptField,Option.filter,hr,decodeHex_hexChars,hR.utf8]
  · exact decryptField_encryptField hR draw t (some kekId) (some version.val)

lemma clear_of_roundTrips (hR : R.Documented) {draw t kekId ver}
    (h : (Origin.token draw t kekId ver).RoundTrips R E now) :
    (Origin.token draw t kekId ver).Clear := by
  obtain ⟨fld,hrd,-,hkk,hv,-⟩ := h
  obtain ⟨_,_,_,_,_,_,ht,hk,-⟩ := deserialize_eq_ok hrd
  have hm : fld.dek_kek_id ∈ split ':' (serializeEncryptedField R now
      (encryptField R E draw t (some kekId) (some ver.val))) := by
    rw [ht]
    simp
  have hc := (mem_split hm).1
  rw [split_token hR now _ ver.val rfl] at ht
  obtain ⟨-,ht⟩ := cons_eq_cons.mp ht
  obtain ⟨hp,hs⟩ := cons_eq_cons.mp ht
  subst hp
  refine ⟨?_,hkk ▸ hc,?_⟩
  · rintro rfl
    have hd : writtenKek ((encryptField R E draw t (some []) (some ver.val)).dek_kek_id) =
      defaultKek := if_pos rfl
    rw [hd,split_append (by decide)] at hs
    have hw := (cons_eq_cons.mp hs).1
    rw [hkk] at hw
    cases hw
  · by_contra hb
    obtain ⟨d,_,hr⟩ := hR.exponent ver.val ver.property (Nat.le_of_not_lt hb)
    rw [hv,erase_cons_head,hr] at hk
    have he : (ver.val : Int) = d := Option.some.inj hk
    rw [exponentBound] at hb
    omega

lemma length_of_decrypt (hR : R.Documented) {p t fld} (hr : deserializeEncryptedField R p = .ok fld)
    (ht : decryptField R E fld = .ok t) : 2 * t.length ≤ p.length := by
  obtain ⟨_,_,_,_,c,_,hs,-,hp⟩ := deserialize_eq_ok hr
  have ha : c.length ≤ p.length := (mem_split (by rw [hs]; simp)).2
  have hb := length_decodeHex c
  rw [← hp] at hb
  rw [decryptField] at ht
  cases hk : unwrapDek R E fld.dek_wrapped with
  | error => simp [hk,bind,Except.bind] at ht
  | ok =>
    simp only [hk,bind,Except.bind] at ht
    split at ht
    · next bytes hd =>
      cases ht
      have hl := hR.decrypt_length _ _ _ _ _ hd
      have hc := hR.utf8_length bytes
      rw [length_take] at hl
      omega
    · cases ht

lemma reencrypts_value_iff (hR : R.Documented) (E now draw)
    (newKekId newKeyVersion) (origin : Origin) :
    (origin.RoundTrips R E now ∧ ∃ fld, reencryptValue R E newKekId newKeyVersion draw
    (origin.value R E now) = .ok fld ∧ decryptField R E fld = .ok origin.text) ↔ origin.Clear := by
  cases origin with
  | plaintext text =>
    rw [Origin.value,reencryptValue,Origin.Clear,← Bool.not_eq_true]
    constructor
    · rintro ⟨-,fld,hf,hx⟩ hs
      rw [if_pos hs,Contractlib.bind_eq_ok] at hf
      obtain ⟨_,hr,hf⟩ := hf
      rw [reencryptField,Contractlib.bind_eq_ok] at hf
      obtain ⟨_,hn,hf⟩ := hf
      cases hf
      rw [decryptField_encryptField hR] at hx
      cases hx
      have hln := length_of_decrypt hR hr hn
      have hp : 0 < text.length := by
        rw [ isPrefixOf_iff_prefix] at hs
        have hl := hs.length_le
        exact Nat.lt_of_lt_of_le (by decide) hl
      simp only [Origin.text] at hln
      omega
    · intro hs
      rw [if_neg hs]
      exact ⟨trivial,_,rfl,decryptField_encryptField hR ..⟩
  | token draw' text kekId ver =>
    constructor
    · exact fun h => clear_of_roundTrips hR h.1
    · intro hc
      have ht : (Origin.token draw' text kekId ver).RoundTrips R E now := roundTrips_of_clear hR hc
      refine ⟨ht,?_⟩
      obtain ⟨fld,hr,hx,-⟩ := ht
      rw [Origin.value,reencryptValue,if_pos (isPrefixOf_serialize _),hr]
      exact decryptField_reencryptField hR newKekId newKeyVersion hx
  | structured =>
    refine ⟨fun _ => trivial,fun _ => ⟨trivial,?_⟩⟩
    exact decryptField_reencryptField hR newKekId newKeyVersion (decryptField_encryptField hR ..)

lemma reencrypts_iff_forall (draws newKekId newKeyVersion r) :
    Reencrypts R E now draws newKekId newKeyVersion r ↔
    ∀ ent ∈ r, ∃ fld, reencryptValue R E newKekId newKeyVersion (draws ent.1)
    (ent.2.value R E now) = .ok fld ∧ decryptField R E fld = .ok ent.2.text := by
  rw [Reencrypts]
  induction r with
  | nil => exact ⟨fun _ _ h => absurd h not_mem_nil,fun _ => ⟨[],rfl,.nil⟩⟩
  | cons ent r ih =>
    rw [forall_mem_cons,← ih,map_cons,reencryptRecord]
    simp only [Contractlib.bind_eq_ok,Contractlib.pure_eq_ok]
    constructor
    · rintro ⟨res,⟨fld,hf,rest,hr,rfl⟩,ha⟩
      cases ha with
      | cons ho ha => exact ⟨⟨fld,hf,ho.2⟩,rest,hr,ha⟩
    · rintro ⟨⟨fld,hf,ht⟩,rest,hr,ha⟩
      exact ⟨_,⟨fld,hf,rest,hr,rfl⟩,.cons ⟨rfl,ht⟩ ha⟩

end

/-- **Tokens round-trip and records are re-encrypted faithfully** exactly if no plaintext looks like
a token, and the tokens have key ids without colons that are not empty, and versions that are
written without an exponent. -/
theorem pii_tokens_iff (R : Runtime) (hR : R.Documented) (E : Env) (now : Text)
    (draws : String → Draw) (newKekId : Option Text) (newKeyVersion : Option Int)
    (record : List (String × Origin)) : (∀ entry ∈ record, entry.2.RoundTrips R E now) ∧
      Reencrypts R E now draws newKekId newKeyVersion record ↔ ∀ entry ∈ record, entry.2.Clear := by
  rw [reencrypts_iff_forall]
  constructor
  · rintro ⟨ht,hf⟩ entry he
    exact (reencrypts_value_iff hR E now _ newKekId newKeyVersion entry.2).mp
      ⟨ht entry he,hf entry he⟩
  · intro hc
    have hb (entry : String × Origin) (he : entry ∈ record) :=
      (reencrypts_value_iff hR E now (draws entry.1) newKekId newKeyVersion entry.2).mpr
        (hc entry he)
    exact ⟨fun entry he => (hb entry he).1,fun entry he => (hb entry he).2⟩

def Runtime.plain : Runtime where
  encrypt _ _ bytes := (bytes,List.replicate 16 0)
  decrypt _ _ bytes _ := some bytes
  utf8Encode text := text.flatMap String.utf8EncodeChar
  utf8Decode bytes := ((bytes.toByteArray.utf8Decode?.map Array.toList).getD []).take bytes.length
  numberText n := if n < exponentBound then bigIntToString n
    else (digits n.natAbs).take 1 ++ 'e' :: '+' :: digits ((digits n.natAbs).length - 1)
  parseInt := JavaScript.parseInt

lemma parseInt_append {ds rest : Text} (hn : ds ≠ []) (hd : ∀ c ∈ ds, c.isDigit = true)
    (hr : rest.takeWhile Char.isDigit = []) :
    JavaScript.parseInt (ds ++ rest) = some (bigInt ds : Int) := by
  obtain ⟨c,ds,rfl⟩ := exists_cons_of_ne_nil hn
  have hc := hd c mem_cons_self
  have hsp : (c :: ds ++ rest).dropWhile isSpace = c :: ds ++ rest := by
    rw [cons_append,dropWhile_cons_of_neg (by simp [isSpace_of_isDigit hc])]
  have hs : ((c :: ds ++ rest).head? == some '-') = false ∧
      ((c :: ds ++ rest).head? == some '+') = false := by
    have hm : c ≠ '-' := ne_of_isDigit hc (by decide)
    have hp : c ≠ '+' := ne_of_isDigit hc (by decide)
    simp [hm,hp]
  have ht : (c :: ds ++ rest).takeWhile Char.isDigit = c :: ds := by
    rw [takeWhile_append_of_pos hd,hr,append_nil]
  simp only [JavaScript.parseInt,hsp,hs.1,hs.2,Bool.or_self,Bool.false_eq_true,if_false,ht]
  rfl

lemma bigInt_lt_ten {c : Char} (hc : c.isDigit = true) : bigInt [c] < 10 := by
  rw [Char.isDigit,Bool.and_eq_true,decide_eq_true_eq,decide_eq_true_eq] at hc
  have hh : c.toNat ≤ 57 := hc.2
  simp only [bigInt,Nat.ofDigitChars,foldl_cons,foldl_nil]
  have hz : '0'.toNat = 48 := rfl
  omega

lemma plain_documented : Runtime.plain.Documented where
  tag _ _ _ := rfl
  decrypt _ _ _ _ _ := rfl
  decrypt_length _ _ bytes _ bytes' h := by
    cases h
    rfl
  utf8 text := by
    have hl : text.length ≤ (text.flatMap String.utf8EncodeChar).length := by
      induction text with
      | nil => simp
      | cons c text ih =>
        have hc := String.length_utf8EncodeChar c
        have hp := Char.utf8Size_pos c
        simp only [flatMap_cons,length_append,length_cons]
        omega
    have hb : (text.flatMap String.utf8EncodeChar).toByteArray = text.utf8Encode := rfl
    simp only [Runtime.plain,hb,utf8Decode?_utf8Encode,map_some,getD_some]
    exact take_of_length_le hl
  utf8_length bytes := length_take_le ..
  number_colon n hm := by
    have hdi {m : Nat} (h : ':' ∈ digits m) : False := by
      have hd := isDigit_digits h
      cases hd
    simp only [Runtime.plain,bigIntToString] at hm
    split at hm
    · rw [if_neg (by omega)] at hm
      exact hdi hm
    rcases mem_append.mp hm with hm | hm
    · exact hdi (mem_of_mem_take hm)
    · exact hdi (by simpa using hm)
  number n _ hn := by
    have ht : (n : Int) < exponentBound := by exact_mod_cast hn
    have hx : Runtime.plain.numberText n = digits n ++ [] := by
      simp only [Runtime.plain,if_pos ht,bigIntToString,append_nil]
      rw [if_neg (by omega),Int.natAbs_natCast]
    rw [hx]
    show JavaScript.parseInt _ = _
    rw [parseInt_append (digits_ne_nil n) (fun c => isDigit_digits) rfl,bigInt_digits]
  exponent n _ hn := by
    have hg : ¬ (n : Int) < exponentBound := by omega
    obtain ⟨c,_,hdi⟩ := exists_cons_of_ne_nil (digits_ne_nil n)
    have hc : c.isDigit = true := isDigit_digits (n := n) (by rw [hdi]; exact mem_cons_self)
    refine ⟨bigInt [c],bigInt_lt_ten hc,?_⟩
    simp only [Runtime.plain,if_neg hg,Int.natAbs_natCast,hdi,take_succ_cons,take_zero]
    exact parseInt_append (cons_ne_nil c []) (by simpa using hc) rfl

def plainDraw : Draw where
  dek := List.replicate 32 1
  nonce := List.replicate 12 2
  wrapNonce := List.replicate 12 3
  createdAt := "2026-01-01T00:00:00.000Z".toList
  dek_length := List.length_replicate
  nonce_length := List.length_replicate
  wrapNonce_length := List.length_replicate
  createdAt_ne := by decide

def plainEnv : Env := ⟨List.replicate 32 7,defaultKek,List.length_replicate⟩

def third : Version := ⟨3,3,by decide,0,rfl⟩

/-- A plaintext and a token in one record. -/
theorem pii_tokens_iff_plain : Reencrypts .plain plainEnv [] (fun _ => plainDraw) none none
    [("name", .plaintext ['A','n','a']),("phone", .token plainDraw ['7'] ['k','1'] third)] := by
  refine ((pii_tokens_iff .plain plain_documented plainEnv [] (fun _ => plainDraw) none none
    _).mpr ?_).2
  intro ent he
  rcases mem_cons.mp he with rfl | he
  · rfl
  · cases mem_singleton.mp he
    exact ⟨by decide,by decide,by decide⟩

/-- **A key id with a colon**: the token is read with a part of it as the id. And a plaintext that
begins like a token is not encrypted but read as one. -/
theorem colon_splits_token :
    ¬ ∀ (R : Runtime), R.Documented → ∀ (E : Env) (now : Text) (draws : String → Draw)
    (newKekId : Option Text) (newKeyVersion : Option Int) (record : List (String × Origin)),
    (∀ entry ∈ record, entry.2.RoundTrips R E now) ∧
    Reencrypts R E now draws newKekId newKeyVersion record := by
  intro h
  have ht := (h .plain plain_documented plainEnv [] (fun _ => plainDraw) none none
    [("phone",.token plainDraw ['7'] ['k',':','1'] third)]).1 _ mem_cons_self
  exact absurd (clear_of_roundTrips plain_documented ht).2.1 (by decide)

end DukaPay.Backend.Pii
