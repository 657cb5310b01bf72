import DukaPay.Contractlib.Base64
import DukaPay.JavaScript.Date

/-! A cursor names a row of a list by its time of creation and its sequence number. -/
namespace DukaPay.Backend.Paging
open Contractlib JavaScript List Option Base64

/-! ### Texts that are read -/

structure Payload where
  createdAt : Option (List Char)
  seq : Option (List Char)

structure Runtime where
  utf8 : List UInt8 → List Char
  json : List Char → Option Payload
  date : List Char → Option Int
  /-- the text of a parameter that is compared with a `timestamp`, in microseconds; nothing is an
  error of the database -/
  timestamp : List Char → Option Int

variable (text : List Char)

def utf8Bytes : List UInt8 := text.flatMap String.utf8EncodeChar

def createdAtName : List Char := ['c','r','e','a','t','e','d','A','t']
def seqName : List Char := ['s','e','q']

def stringify (createdAt seq : List Char) : List Char :=
  '\x7b' :: (quote createdAtName ++ ':' :: (quote createdAt ++
    ',' :: (quote seqName ++ ':' :: (quote seq ++ ['\x7d']))))

def yearOf (t : Int) : Int := (Calendar.date (t / millisecondsPerDay)).year

def Readable (t : Int) : Prop := 1 ≤ yearOf t ∧ yearOf t ≤ 9999

instance (t : Int) : Decidable (Readable t) := inferInstanceAs (Decidable (_ ∧ _))

/-- The functions read back what `Buffer.from`, `JSON.stringify` and `toISOString` write. -/
structure Runtime.Documented (R : Runtime) : Prop where
  utf8 : ∀ text : List Char, R.utf8 (utf8Bytes text) = text
  json : ∀ createdAt seq, Plain createdAt → Plain seq →
    R.json (stringify createdAt seq) = some ⟨some createdAt,some seq⟩
  date : ∀ t text, toISOString t = some text → R.date text = some t
  timestamp : ∀ t text, toISOString t = some text →
    R.timestamp text = if Readable t then some (1000 * t) else none

/-! ### base64url -/

def replaceAll (c d : Char) (text : List Char) : List Char :=
  text.map fun x => if x = c then d else x

def base64urlEncode : List Char :=
  (replaceAll '/' '_' (replaceAll '+' '-' (Base64.encode (utf8Bytes text)))).filter
    fun c => c != '='

def base64urlDecode (R : Runtime) (text : List Char) : List Char :=
  let filled := padEnd (text.length + (4 - text.length % 4) % 4) '=' text
  R.utf8 (Base64.decode (replaceAll '_' '/' (replaceAll '-' '+' filled)))

section
variable {R : Runtime}

lemma decode_replaceAll {c d} (h : value d = value c) (text) :
    decode (replaceAll c d text) = decode text := by
  refine decode_map fun x => ?_
  split
  · next hx => rw [hx,h]
  · rfl

lemma base64urlDecode_base64urlEncode (hR : R.Documented) (text) :
    base64urlDecode R (base64urlEncode text) = text := by
  have hf : ∀ n (l : List Char), decode (padEnd n '=' l) = decode l := by
    intro n l
    refine decode_append fun c hc => ?_
    rw [(mem_replicate.mp hc).2]
    rfl
  have hr : ∀ c, (c != '=') = false → value c = none := by
    intro c hc
    have he : c = '=' := by simpa using hc
    rw [he]
    rfl
  rw [base64urlDecode,decode_replaceAll (by rfl),decode_replaceAll (by rfl),hf,
    base64urlEncode,decode_filter hr,decode_replaceAll (by rfl),
    decode_replaceAll (by rfl),decode_encode,hR.utf8]

lemma isSpace_base64urlEncode {text c} (h : c ∈ base64urlEncode text) : isSpace c = false := by
  have hs : ∀ n < 64, isSpace (symbol n) = false := by decide
  have hr : ∀ x y, ∀ l, isSpace y = false → (∀ c ∈ l, isSpace c = false) →
      ∀ c ∈ replaceAll x y l, isSpace c = false := by
    intro x y l hy hl c hc
    obtain ⟨c,hm,rfl⟩ := mem_map.mp hc
    split
    · exact hy
    · exact hl c hm
  refine hr _ _ _ (by decide) (hr _ _ _ (by decide) fun c hc => ?_) c (mem_filter.mp h).1
  rcases mem_encode hc with rfl | ⟨n,hn,rfl⟩
  · decide
  · exact hs n hn

end

/-! ### Cursors -/

structure DecodedCursor where
  createdAt : Int
  seq : Int
deriving DecidableEq

def encodeCursor (createdAt seq : Int) : Option (List Char) := do
  let iso ← toISOString createdAt
  some (base64urlEncode (stringify iso (bigIntToString seq)))

def decodeCursor (R : Runtime) (cursor : List Char) : Option DecodedCursor := do
  let payload ← R.json (base64urlDecode R cursor)
  let createdAt ← payload.createdAt
  let seq ← payload.seq
  if createdAt = [] ∨ seq = [] then none
  else
    let createdAt ← R.date createdAt
    let seq ← stringToBigInt seq
    some ⟨createdAt,seq⟩

section
variable {R : Runtime} {t seq : Int} {text : List Char}

lemma encodeCursor_eq_some : encodeCursor t seq = some text ↔ ∃ iso, toISOString t = some iso ∧
    text = base64urlEncode (stringify iso (bigIntToString seq)) := by
  rw [encodeCursor]
  cases toISOString t with
  | none => simp
  | some => simp [eq_comm]

lemma isoText_of_toISOString {iso} (h : toISOString t = some iso) : iso = isoText t := by
  rw [toISOString] at h
  split at h
  · exact (Option.some.inj h).symm
  · cases h

lemma decodeCursor_encodeCursor (hR : R.Documented) (h : encodeCursor t seq = some text) :
    decodeCursor R text = some ⟨t,seq⟩ := by
  obtain ⟨_,hs,rfl⟩ := encodeCursor_eq_some.mp h
  obtain rfl := isoText_of_toISOString hs
  have hp := hR.json (isoText t) (bigIntToString seq) (plain_isoText t) (plain_bigIntToString seq)
  have hn : ¬ (isoText t = [] ∨ bigIntToString seq = []) :=
    not_or.mpr ⟨isoText_ne_nil t,bigIntToString_ne_nil seq⟩
  simp only [decodeCursor,base64urlDecode_base64urlEncode hR,hp,bind_eq_bind,
    bind_some,if_neg hn,hR.date t _ hs,stringToBigInt_bigIntToString]

end

/-! ### Parameters of a request -/

def defaultLimit : Nat := 50
def maxLimit : Nat := 100

structure KeysetPaginationParams where
  snapshotSeq : Int
  cursor : Option (List Char)
  limit : Nat
deriving DecidableEq

def parseLimit (limit : Option (List Char)) : Nat :=
  match limit with
  | none => defaultLimit
  | some text =>
    if text = [] then defaultLimit
    else match parseInt text with
      | none => defaultLimit
      | some n => if ¬ isFinite n ∨ n < 1 then defaultLimit else min n.toNat maxLimit

def parseKeysetParams (snapshotSeq cursor limit : Option (List Char)) :
    Option KeysetPaginationParams := do
  let snapshot ← match snapshotSeq with
    | none => some 0
    | some text => if text = [] then some 0 else stringToBigInt text
  some
    { snapshotSeq := snapshot
      cursor := (cursor.map trim).filter fun text => !text.isEmpty
      limit := parseLimit limit }

lemma parseLimit_pos (limit) : 0 < parseLimit limit := by
  unfold parseLimit
  split
  · decide
  split
  · decide
  split
  · decide
  split
  · decide
  · next hn =>
    rw [not_or] at hn
    rw [maxLimit]
    omega

lemma parseKeysetParams_encodeCursor {R : Runtime} (hR : R.Documented) {t seq text}
    (h : encodeCursor t seq = some text) (snapshot)
    (limit) : parseKeysetParams (some (bigIntToString snapshot)) (some text) limit =
    some ⟨snapshot,some text,parseLimit limit⟩ := by
  obtain ⟨iso,_,hx⟩ := encodeCursor_eq_some.mp h
  have ht : trim text = text := trim_of_forall fun c hc => isSpace_base64urlEncode (hx ▸ hc)
  have hn : text ≠ [] := by
    rintro rfl
    have hd := base64urlDecode_base64urlEncode hR (stringify iso (bigIntToString seq))
    rw [← hx] at hd
    cases (hR.utf8 []).symm.trans hd
  have hr : ((some text).map trim).filter (fun text => !text.isEmpty) = some text := by
    rw [map_some,ht,filter_some,if_pos (by simpa using hn)]
  simp only [parseKeysetParams,if_neg (bigIntToString_ne_nil snapshot),
    stringToBigInt_bigIntToString,hr]
  rfl

/-! ### Functions as documented -/

def readPayload : Option Payload :=
  match split '\x22' text with
  | [left,name,colon,createdAt,comma,name',colon',seq,right] =>
    if [left,name,colon,comma,name',colon',right] =
        [['\x7b'],createdAtName,[':'],[','],seqName,[':'],['\x7d']] then
      some ⟨some createdAt,some seq⟩
    else none
  | _ => none

def Runtime.plain : Runtime where
  utf8 bytes := (bytes.toByteArray.utf8Decode?.map Array.toList).getD []
  json := readPayload
  date text := (readIso text).map IsoParts.time
  timestamp text := do
    let parts ← readIso text
    if parts.signed ∨ parts.date.year = 0 then none else some (1000 * parts.time)

lemma readPayload_stringify {createdAt seq} (hc : Plain createdAt) (hq : Plain seq) :
    readPayload (stringify createdAt seq) = some ⟨some createdAt,some seq⟩ := by
  have hn : Plain createdAtName := by decide
  have hn' : Plain seqName := by decide
  have hs : stringify createdAt seq = ['\x7b'] ++ '\x22' :: (createdAtName ++ '\x22' ::
      ([':'] ++ '\x22' :: (createdAt ++ '\x22' :: ([','] ++ '\x22' :: (seqName ++ '\x22' ::
        ([':'] ++ '\x22' :: (seq ++ '\x22' :: ['\x7d']))))))) := by
    rw [stringify,quote_of_plain hn,quote_of_plain hn',quote_of_plain hc,quote_of_plain hq]
    simp only [cons_append,nil_append,append_assoc]
  rw [readPayload,hs,split_append (by decide),split_append (by decide),
    split_append (by decide),split_append (quotation_notMem_of_plain hc),
    split_append (by decide),split_append (by decide),split_append (by decide),
    split_append (quotation_notMem_of_plain hq),split_of_notMem (by decide)]
  exact if_pos rfl

lemma plain_documented : Runtime.plain.Documented where
  utf8 text := by
    have hb : (utf8Bytes text).toByteArray = text.utf8Encode := rfl
    simp only [Runtime.plain,hb,utf8Decode?_utf8Encode,map_some,getD_some]
  json createdAt seq := readPayload_stringify
  date t text h := by
    rw [isoText_of_toISOString h]
    simp only [Runtime.plain,readIso_isoText,map_some,time_isoParts]
  timestamp t text h := by
    rw [isoText_of_toISOString h]
    have hr : ((isoParts t).signed = true ∨ (isoParts t).date.year = 0) ↔ ¬ Readable t := by
      simp only [isoParts,Readable,yearOf,Bool.not_eq_true',decide_eq_false_iff_not]
      omega
    simp only [Runtime.plain,readIso_isoText,bind_eq_bind,bind_some,time_isoParts,hr,ite_not]

end DukaPay.Backend.Paging
