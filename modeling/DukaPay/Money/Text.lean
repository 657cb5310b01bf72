import DukaPay.JavaScript
import DukaPay.Money.Rounding
import Mathlib.Data.List.TakeWhile

/-! The backend and the frontend read decimal amounts and write them. -/
namespace DukaPay
open Contractlib JavaScript List
open Money (RoundingMode)

def stroopDecimals : Nat := 7

def stroopScale : Int := 10000000

section

def unsignedDecimal (text : List Char) : Bool :=
  let whole := text.takeWhile Char.isDigit
  !whole.isEmpty && match text.dropWhile Char.isDigit with
    | [] => true
    | c :: fraction => decide (c = '.') && !fraction.isEmpty && fraction.all Char.isDigit

def dropSign (text : List Char) : List Char := if text.head? = some '-' then text.drop 1 else text

def decimalString (text : List Char) : Bool := unsignedDecimal (dropSign text)

variable (roundDiv : Int → Int → RoundingMode → Except MoneyError Int)

def readMagnitude (unsigned : List Char) (mode : RoundingMode) : Except MoneyError Int :=
  let parts := split '.' unsigned
  let wholeRaw := parts.headD []
  let fractionRaw := parts.getD 1 []
  let whole := if wholeRaw.isEmpty then ['0'] else wholeRaw
  if fractionRaw.length ≤ stroopDecimals then
    let paddedFraction := padEnd stroopDecimals '0' fractionRaw
    pure (bigInt whole * stroopScale +
      bigInt (if paddedFraction.isEmpty then ['0'] else paddedFraction))
  else
    let extraDigits := fractionRaw.length - stroopDecimals
    roundDiv (bigInt whole * 10 ^ fractionRaw.length + bigInt fractionRaw) (10 ^ extraDigits) mode

/-- The way in which both layers read an amount: `input` is what was given, and `trimmed` what is
read of it. -/
def readDecimal (input : String)
    (trimmed : List Char) (mode : RoundingMode) : Except MoneyError Int :=
  if decimalString trimmed then do
    let magnitude ← readMagnitude roundDiv (dropSign trimmed) mode
    pure (if trimmed.head? = some '-' then -magnitude else magnitude)
  else .error ⟨"invalid decimal amount: " ++ String.ofList (quote input.toList)⟩

def Decimal.toStroops (input : String) (mode : RoundingMode) : Except MoneyError Int :=
  readDecimal Decimal.roundDiv input (trim input.toList) mode

def Format.parseAmount (text : String) (mode : RoundingMode) : Except MoneyError Int :=
  readDecimal Format.roundDiv text ((trim text.toList).filter (· ≠ ',')) mode

end

section

def Decimal.fromStroops (value : Int) : String :=
  let negative := value < 0
  let magnitude := value.natAbs
  let whole := magnitude / stroopScale.toNat
  let fraction := padStart stroopDecimals '0' (digits (magnitude % stroopScale.toNat))
  String.ofList ((if negative then ['-'] else []) ++ digits whole ++ '.' :: fraction)

structure FormatStroopsOptions where
  decimalPlaces : Option Int
  mode : Option RoundingMode
  grouped : Option Bool
  locale : Option String

def displayDecimalPlaces : Int := 2

def Format.scaledMagnitude (magnitude : Int) (decimalPlaces : Nat) (mode : RoundingMode) :
    Except MoneyError Int :=
  if stroopDecimals ≤ decimalPlaces then
    pure (magnitude * 10 ^ (decimalPlaces - stroopDecimals))
  else Format.roundDiv magnitude (10 ^ (stroopDecimals - decimalPlaces)) mode

def Format.formatStroops (toLocaleString : Nat → String → List Char) (value : Int)
    (opts : FormatStroopsOptions) : Except MoneyError String := do
  let decimalPlaces := opts.decimalPlaces.getD displayDecimalPlaces
  let mode := opts.mode.getD .HalfEven
  ensure (0 ≤ decimalPlaces) ⟨"decimalPlaces must be non-negative"⟩
  let decimalPlaces := decimalPlaces.toNat
  let negative := value < 0
  let scaledMagnitude ← Format.scaledMagnitude value.natAbs decimalPlaces mode
  let whole := scaledMagnitude.toNat / 10 ^ decimalPlaces
  let fraction := scaledMagnitude.toNat % 10 ^ decimalPlaces
  let wholeStr :=
    if opts.grouped.getD false then toLocaleString whole (opts.locale.getD "en-US")
    else digits whole
  let sign := if negative ∧ scaledMagnitude ≠ 0 then ['-'] else []
  if decimalPlaces = 0 then pure (String.ofList (sign ++ wholeStr))
  else pure (String.ofList (sign ++ wholeStr ++
    '.' :: padStart decimalPlaces '0' (digits fraction)))

end

structure Numeral where
  negative : Bool
  whole : List Char
  fraction : List Char
  whole_ne_nil : whole ≠ []
  whole_digits : ∀ c ∈ whole, c.isDigit = true
  fraction_digits : ∀ c ∈ fraction, c.isDigit = true

namespace Numeral
variable (n : Numeral)

def unsigned : List Char :=
  n.whole ++ if n.fraction = [] then [] else '.' :: n.fraction

def text : List Char := (if n.negative then ['-'] else []) ++ n.unsigned

def fractionValue : List Char → ℚ
  | [] => 0
  | c :: rest => ((c.toNat - '0'.toNat : ℕ) + fractionValue rest) / 10

def magnitude : ℚ := bigInt n.whole + fractionValue n.fraction

def value : ℚ := if n.negative then -n.magnitude else n.magnitude

def SignFree (mode : RoundingMode) : Prop :=
  n.negative = false ∨ mode = .HalfEven ∨ mode = .HalfUp ∨ n.fraction.length ≤ stroopDecimals

end Numeral

section

lemma unsignedDecimal_iff {t} : unsignedDecimal t = true ↔
    ∃ n : Numeral, n.negative = false ∧ t = n.unsigned := by
  constructor
  · intro h
    rw [unsignedDecimal,Bool.and_eq_true,Bool.not_eq_true',isEmpty_eq_false_iff] at h
    obtain ⟨hw,he⟩ := h
    have hd : ∀ c ∈ t.takeWhile Char.isDigit, c.isDigit = true := fun c hc => mem_takeWhile_imp hc
    have ht := takeWhile_append_dropWhile (p := Char.isDigit) (l := t)
    cases hr : t.dropWhile Char.isDigit with
    | nil =>
      refine ⟨⟨false,t.takeWhile Char.isDigit,[],hw,hd,?_⟩,rfl,?_⟩
      · exact fun c hc => absurd hc not_mem_nil
      · rw [hr] at ht
        exact ht.symm
    | cons c fraction =>
      rw [hr] at he
      simp only [Bool.and_eq_true,decide_eq_true_eq,Bool.not_eq_true',
        isEmpty_eq_false_iff,all_eq_true] at he
      obtain ⟨⟨rfl,hn⟩,ha⟩ := he
      refine ⟨⟨false,t.takeWhile Char.isDigit,fraction,hw,hd,ha⟩,rfl,?_⟩
      rw [Numeral.unsigned,if_neg hn,← hr,ht]
  · rintro ⟨n,-,rfl⟩
    have hp : ∀ c ∈ n.whole, c.isDigit = true := n.whole_digits
    rw [unsignedDecimal,Numeral.unsigned]
    by_cases hf : n.fraction = []
    · rw [if_pos hf,append_nil,takeWhile_eq_self_iff.mpr hp,dropWhile_eq_nil_iff.mpr hp]
      simp [n.whole_ne_nil]
    rw [if_neg hf,takeWhile_append_of_pos hp,dropWhile_append_of_pos hp]
    rw [takeWhile_cons_of_neg (by decide),dropWhile_cons_of_neg (by decide)]
    simpa [n.whole_ne_nil,hf] using n.fraction_digits

lemma Numeral.head?_unsigned (n : Numeral) : n.unsigned.head? ≠ some '-' := by
  obtain ⟨c,_,hw⟩ := exists_cons_of_ne_nil n.whole_ne_nil
  have hc : c.isDigit = true := n.whole_digits c (hw ▸ mem_cons_self)
  rw [Numeral.unsigned,hw,cons_append,head?_cons]
  intro h
  exact ne_of_isDigit hc (by decide) (Option.some.inj h)

lemma Numeral.head?_text (n : Numeral) : n.text.head? = some '-' ↔ n.negative = true := by
  rw [Numeral.text]
  cases n.negative with
  | true => exact ⟨fun _ => rfl,fun _ => rfl⟩
  | false => exact ⟨fun h => absurd h n.head?_unsigned,fun h => absurd h Bool.false_ne_true⟩

@[simp] lemma Numeral.dropSign_text (n : Numeral) : dropSign n.text = n.unsigned := by
  rw [dropSign]
  split
  · next hs =>
    rw [Numeral.text,n.head?_text.mp hs]
    rfl
  · next hs =>
    rw [Numeral.text,if_neg fun h => hs (n.head?_text.mpr h)]
    rfl

lemma decimalString_iff {t} : decimalString t = true ↔ ∃ n : Numeral, t = n.text := by
  constructor
  · intro h
    obtain ⟨n,hn,ht⟩ := unsignedDecimal_iff.mp h
    rw [dropSign] at ht
    split at ht
    · next hs =>
      refine ⟨{ n with negative := true },?_⟩
      obtain ⟨_,hr⟩ := head?_eq_some_iff.mp hs
      rw [hr] at ht ⊢
      exact congrArg ('-' :: ·) ht
    · refine ⟨n,?_⟩
      rw [ht,Numeral.text,hn]
      rfl
  · rintro ⟨n,rfl⟩
    rw [decimalString,n.dropSign_text]
    exact unsignedDecimal_iff.mpr ⟨{ n with negative := false },rfl,rfl⟩

end

section
variable {n : Numeral} {mode : RoundingMode}

lemma fractionValue_eq (digits) :
    Numeral.fractionValue digits = (bigInt digits : ℚ) / 10 ^ digits.length := by
  induction digits with
  | nil => simp [Numeral.fractionValue,bigInt]
  | cons c digits ih =>
    have hc : bigInt (c :: digits) = (c.toNat - '0'.toNat) * 10 ^ digits.length + bigInt digits := by
      rw [bigInt,Nat.ofDigitChars_cons,ofDigitChars_eq,Nat.mul_zero,Nat.zero_add]
    rw [Numeral.fractionValue,ih,hc,length_cons,pow_succ]
    push_cast
    field_simp

lemma point_notMem {digits : List Char} (h : ∀ c ∈ digits, c.isDigit = true) : '.' ∉ digits :=
  fun hm => ne_of_isDigit (h _ hm) (by decide) rfl

lemma Numeral.split_unsigned (n : Numeral) : (split '.' n.unsigned).headD [] = n.whole ∧
    (split '.' n.unsigned).getD 1 [] = n.fraction := by
  have hw := point_notMem n.whole_digits
  rw [Numeral.unsigned]
  split
  · next hf =>
    rw [append_nil,split_of_notMem hw,hf]
    exact ⟨rfl,rfl⟩
  · rw [split_append hw,split_of_notMem (point_notMem n.fraction_digits)]
    exact ⟨rfl,rfl⟩

lemma Numeral.magnitude_eq (n : Numeral) : n.magnitude * stroopScale =
    ((bigInt n.whole * 10 ^ n.fraction.length + bigInt n.fraction : ℕ) : ℚ) * 10 ^ stroopDecimals /
    10 ^ n.fraction.length := by
  have hs : ((stroopScale : ℤ) : ℚ) = 10 ^ stroopDecimals := by
    norm_num [stroopScale,stroopDecimals]
  rw [Numeral.magnitude,fractionValue_eq,hs]
  push_cast
  field_simp

lemma isRounding_self (mode : RoundingMode) (q : Int) : IsRounding mode q q := by
  cases mode with
  | Floor => exact (Int.floor_intCast q).symm
  | Ceil => exact (Int.ceil_intCast q).symm
  | HalfUp =>
    refine ⟨by norm_num,fun h => ?_⟩
    norm_num at h
  | HalfEven =>
    refine ⟨by norm_num,fun h => ?_⟩
    norm_num at h

lemma readMagnitude_unsigned (n : Numeral) (mode) :
    ∃ q, readMagnitude Decimal.roundDiv n.unsigned mode = .ok q ∧
    IsRounding mode (n.magnitude * stroopScale) q ∧
    (n.fraction.length ≤ stroopDecimals → (q : ℚ) = n.magnitude * stroopScale) := by
  obtain ⟨hh,hf⟩ := n.split_unsigned
  have hs : (stroopScale : ℤ) = 10 ^ stroopDecimals := by decide
  rw [readMagnitude]
  simp only [hh,hf,List.isEmpty_iff,if_neg n.whole_ne_nil]
  by_cases hl : n.fraction.length ≤ stroopDecimals
  · have hp : padEnd stroopDecimals '0' n.fraction ≠ [] := by
      intro h
      have hn := congrArg List.length h
      rw [padEnd,List.length_append,List.length_replicate,List.length_nil] at hn
      simp only [stroopDecimals] at hn hl
      omega
    rw [if_pos hl,if_neg hp,bigInt_padEnd]
    have he : (((bigInt n.whole * stroopScale +
        (bigInt n.fraction * 10 ^ (stroopDecimals - n.fraction.length) : ℕ) : ℤ)) : ℚ) =
        n.magnitude * stroopScale := by
      rw [n.magnitude_eq,hs]
      push_cast
      rw [eq_div_iff (by positivity)]
      have hw : (10 : ℚ) ^ stroopDecimals =
          10 ^ (stroopDecimals - n.fraction.length) * 10 ^ n.fraction.length := by
        rw [← pow_add,Nat.sub_add_cancel hl]
      rw [hw]
      ring
    exact ⟨_,rfl,he ▸ isRounding_self mode _,fun _ => he⟩
  · rw [if_neg hl]
    obtain ⟨q,hq,hr⟩ := Decimal.roundDiv_spec
      (bigInt n.whole * 10 ^ n.fraction.length + bigInt n.fraction)
      (pow_ne_zero (n.fraction.length - stroopDecimals) (by decide : (10 : ℤ) ≠ 0)) mode
    refine ⟨q,hq,?_,fun h => absurd h hl⟩
    have ht : n.magnitude * stroopScale =
        ((bigInt n.whole * 10 ^ n.fraction.length + bigInt n.fraction : ℤ) : ℚ) /
          ((10 ^ (n.fraction.length - stroopDecimals) : ℤ) : ℚ) := by
      rw [n.magnitude_eq]
      push_cast
      rw [div_eq_div_iff (by positivity) (by positivity)]
      have hw : (10 : ℚ) ^ n.fraction.length =
          10 ^ stroopDecimals * 10 ^ (n.fraction.length - stroopDecimals) := by
        rw [← pow_add,Nat.add_sub_cancel' (Nat.le_of_not_le hl)]
      rw [hw]
      ring
    rw [ht]
    exact hr

lemma IsRounding.neg {x q} (hm : mode = .HalfEven ∨ mode = .HalfUp)
    (h : IsRounding mode x q) : IsRounding mode (-x) (-q) := by
  have ha : |-x - ((-q : ℤ) : ℚ)| = |x - q| := by
    rw [← abs_neg]
    push_cast
    congr 1
    ring
  rcases hm with rfl | rfl
  · exact ⟨ha ▸ h.1,fun ht => (h.2 (ha ▸ ht)).neg⟩
  · refine ⟨ha ▸ h.1,fun ht => ?_⟩
    have hl := h.2 (ha ▸ ht)
    push_cast
    rwa [abs_neg,abs_neg]

end

section
variable {n : Numeral} {mode : RoundingMode}

def Numeral.signed (n : Numeral) (q : Int) : Int := if n.negative then -q else q

lemma Numeral.mem_text {c} (h : c ∈ n.text) : c.isDigit = true ∨ c = '-' ∨ c = '.' := by
  rw [Numeral.text,Numeral.unsigned] at h
  rcases mem_append.mp h with h | h
  · split at h
    · exact .inr (.inl (mem_singleton.mp h))
    · cases h
  rcases mem_append.mp h with h | h
  · exact .inl (n.whole_digits c h)
  split at h
  · cases h
  rcases mem_cons.mp h with h | h
  · exact .inr (.inr h)
  · exact .inl (n.fraction_digits c h)

lemma Numeral.trim_text (n : Numeral) : trim n.text = n.text := by
  refine trim_of_forall fun c hc => ?_
  rcases n.mem_text hc with hc | rfl | rfl
  · exact isSpace_of_isDigit hc
  · decide
  · decide

lemma Numeral.filter_text (n : Numeral) : n.text.filter (· ≠ ',') = n.text := by
  refine filter_eq_self.mpr fun c hc => ?_
  rw [decide_eq_true_eq]
  rcases n.mem_text hc with hc | rfl | rfl
  · exact ne_of_isDigit hc (by decide)
  · decide
  · decide

lemma readDecimal_text (inp) (n : Numeral) (mode) :
    ∃ q : Int, readDecimal Decimal.roundDiv inp n.text mode = .ok (n.signed q) ∧
    IsRounding mode (n.magnitude * stroopScale) q ∧
    (n.fraction.length ≤ stroopDecimals → (q : ℚ) = n.magnitude * stroopScale) := by
  obtain ⟨q,hr,hn⟩ := readMagnitude_unsigned n mode
  refine ⟨q,?_,hn⟩
  rw [readDecimal,if_pos (decimalString_iff.mpr ⟨n,rfl⟩),n.dropSign_text,hr]
  refine congrArg Except.ok ?_
  simp only [n.head?_text,Numeral.signed]

lemma toStroops_eq_readDecimal {s : String} (h : trim s.toList = n.text) :
    Decimal.toStroops s mode = readDecimal Decimal.roundDiv s n.text mode := by
  rw [Decimal.toStroops,h]

lemma parseAmount_eq_readDecimal {s : String} (h : trim s.toList = n.text) :
    Format.parseAmount s mode = readDecimal Decimal.roundDiv s n.text mode := by
  have hd : Format.roundDiv = Decimal.roundDiv := by
    funext num den mode
    exact Format.roundDiv_eq_decimal num den mode
  rw [Format.parseAmount,h,n.filter_text,hd]

lemma exists_numeral_of_toStroops {s v}
    (h : Decimal.toStroops s mode = .ok v) : ∃ n : Numeral, trim s.toList = n.text := by
  rw [Decimal.toStroops,readDecimal] at h
  split at h
  · next hp => exact decimalString_iff.mp hp
  · cases h

lemma isRounding_signed {q} (hr : IsRounding mode (n.magnitude * stroopScale) q)
    (he : n.fraction.length ≤ stroopDecimals → (q : ℚ) = n.magnitude * stroopScale)
    (hf : n.SignFree mode) : IsRounding mode (n.value * stroopScale) (n.signed q) := by
  rw [Numeral.value,Numeral.signed]
  cases hs : n.negative with
  | false => exact hr
  | true =>
    show IsRounding mode (-n.magnitude * stroopScale) (-q)
    rw [neg_mul]
    rcases hf with hp | hm | hm | hl
    · rw [hs] at hp
      cases hp
    · exact hr.neg (.inl hm)
    · exact hr.neg (.inr hm)
    · rw [← he hl,← Int.cast_neg]
      exact isRounding_self mode (-q)

end

section
variable {mode : RoundingMode}

def fractionDigits (scaled decimals : Nat) : List Char :=
  if decimals = 0 then [] else padStart decimals '0' (digits (scaled % 10 ^ decimals))

lemma isDigit_fractionDigits {sc dec c} (h : c ∈ fractionDigits sc dec) : c.isDigit = true := by
  rw [fractionDigits] at h
  split at h
  · cases h
  · exact isDigit_padStart h

lemma fractionDigits_spec (sc decimals) : (fractionDigits sc decimals).length = decimals ∧
    bigInt (fractionDigits sc decimals) = sc % 10 ^ decimals := by
  rw [fractionDigits]
  split
  · next hz =>
    rw [hz,pow_zero,Nat.mod_one]
    exact ⟨rfl,rfl⟩
  · next hp =>
    have hl : sc % 10 ^ decimals < 10 ^ decimals := Nat.mod_lt _ (by positivity)
    exact ⟨length_padStart_digits (Nat.pos_of_ne_zero hp) hl,by rw [bigInt_padStart,bigInt_digits]⟩

def Numeral.ofScaled (negative : Bool) (scaled decimals : Nat) : Numeral where
  negative := negative
  whole := digits (scaled / 10 ^ decimals)
  fraction := fractionDigits scaled decimals
  whole_ne_nil := digits_ne_nil _
  whole_digits _ := isDigit_digits
  fraction_digits _ := isDigit_fractionDigits

lemma Numeral.ofScaled_magnitude (neg scaled decimals) :
    (ofScaled neg scaled decimals).magnitude = (scaled : ℚ) / 10 ^ decimals := by
  obtain ⟨hl,hv⟩ := fractionDigits_spec scaled decimals
  have hw : bigInt (digits (scaled / 10 ^ decimals)) = scaled / 10 ^ decimals := bigInt_digits _
  show (bigInt (digits (scaled / 10 ^ decimals)) : ℚ) +
    fractionValue (fractionDigits scaled decimals) = _
  rw [fractionValue_eq,hl,hv,hw,eq_div_iff (by positivity)]
  have hd := Nat.div_add_mod scaled (10 ^ decimals)
  have hc : ((10 ^ decimals * (scaled / 10 ^ decimals) + scaled % 10 ^ decimals : ℕ) : ℚ) =
      scaled := by rw [hd]
  rw [Nat.cast_add,Nat.cast_mul,Nat.cast_pow,Nat.cast_ofNat] at hc
  rw [add_mul,div_mul_cancel₀ _ (by positivity),mul_comm,hc]

lemma Numeral.text_ofScaled {neg sc dec} :
    (ofScaled neg sc dec).text = (if neg then ['-'] else []) ++
    digits (sc / 10 ^ dec) ++ if dec = 0 then []
    else '.' :: padStart dec '0' (digits (sc % 10 ^ dec)) := by
  have hn : padStart dec '0' (digits (sc % 10 ^ dec)) ≠ [] :=
    fun hl => digits_ne_nil _ (append_eq_nil_iff.mp hl).2
  show _ ++ (_ ++ if fractionDigits sc dec = [] then []
    else '.' :: fractionDigits sc dec) = _
  rw [append_assoc,fractionDigits]
  by_cases hz : dec = 0
  · rw [if_pos hz,if_pos hz,if_pos rfl]
    rfl
  · rw [if_neg hz,if_neg hz,if_neg hn]
    rfl

lemma readDecimal_exact (inp : String) {n : Numeral} {m : Int} (h : n.magnitude * stroopScale = m) :
    readDecimal Decimal.roundDiv inp n.text mode = .ok (n.signed m) := by
  obtain ⟨_,hr,hn,-⟩ := readDecimal_text inp n mode
  rw [h] at hn
  rw [hr,hn.unique (isRounding_self mode m)]

lemma toStroops_fromStroops (x mode) : Decimal.toStroops (Decimal.fromStroops x) mode = .ok x := by
  have ht : (Decimal.fromStroops x).toList =
      (Numeral.ofScaled (decide (x < 0)) x.natAbs stroopDecimals).text := by
    have hp : stroopDecimals ≠ 0 := by decide
    rw [Numeral.text_ofScaled,if_neg hp,Decimal.fromStroops,String.toList_ofList]
    simp only [decide_eq_true_eq]
    rfl
  have hm : (Numeral.ofScaled (decide (x < 0)) x.natAbs stroopDecimals).magnitude *
      stroopScale = (x.natAbs : ℤ) := by
    rw [Numeral.ofScaled_magnitude]
    norm_num [stroopScale,stroopDecimals]
  rw [toStroops_eq_readDecimal (n := Numeral.ofScaled (decide (x < 0)) x.natAbs stroopDecimals)
    (by rw [ht,Numeral.trim_text]),readDecimal_exact _ hm]
  refine congrArg Except.ok ?_
  simp only [Numeral.signed,Numeral.ofScaled,decide_eq_true_eq]
  split <;> omega

lemma IsRounding.nonneg {x q} (h : IsRounding mode x q) (hx : 0 ≤ x) : 0 ≤ q := by
  have hn : |x - q| ≤ 1 / 2 → 0 ≤ q := by
    intro hn
    by_contra hg
    have hl : (q : ℚ) ≤ -1 := by exact_mod_cast Int.le_sub_one_of_lt (not_le.mp hg)
    have ht := (abs_le.mp hn).2
    linarith
  cases mode with
  | Floor => exact h ▸ Int.floor_nonneg.mpr hx
  | Ceil => exact h ▸ Int.ceil_nonneg hx
  | HalfUp => exact hn h.1
  | HalfEven => exact hn h.1

lemma formatStroops_eq (fmt : Nat → String → List Char) (x : Int) (dp) (mode) {sc : Nat}
    (hs : Format.scaledMagnitude x.natAbs dp mode = .ok sc) :
    Format.formatStroops fmt x ⟨some dp,some mode,none,none⟩ = .ok (String.ofList
    (Numeral.ofScaled (decide (x < 0 ∧ sc ≠ 0)) sc dp).text) := by
  have hd : ((some (dp : ℤ)).getD displayDecimalPlaces).toNat = dp := Int.toNat_natCast dp
  have hn : 0 ≤ (some (dp : ℤ)).getD displayDecimalPlaces := Int.natCast_nonneg dp
  have hg : (x < 0 ∧ (sc : ℤ) ≠ 0) ↔ (x < 0 ∧ sc ≠ 0) := by rw [Ne,Int.natCast_eq_zero]
  simp only [Format.formatStroops,hd,bind_eq_ok,ensure_eq_ok,Unique.exists_iff]
  refine ⟨hn,sc,hs,?_⟩
  simp only [Int.toNat_natCast,Option.getD_none,Bool.false_eq_true,if_false,hg]
  rw [Numeral.text_ofScaled]
  simp only [decide_eq_true_eq]
  split
  · rw [append_nil]
    rfl
  · rfl

lemma parseAmount_ofScaled (neg : Bool) (sc dp : Nat) (mode : RoundingMode) {m : Int}
    (h : (sc : ℚ) / 10 ^ dp * stroopScale = m) :
    Format.parseAmount (String.ofList (Numeral.ofScaled neg sc dp).text) mode =
    .ok (if neg then -m else m) := by
  have ht : trim (String.ofList (Numeral.ofScaled neg sc dp).text).toList =
      (Numeral.ofScaled neg sc dp).text := by
    rw [String.toList_ofList,Numeral.trim_text]
  rw [parseAmount_eq_readDecimal ht]
  exact readDecimal_exact _ (by rw [Numeral.ofScaled_magnitude,h])

lemma parseAmount_formatStroops (fmt : Nat → String → List Char) (x : Int) (dp : Nat)
    (mode mode' : RoundingMode) :
    ∃ text, Format.formatStroops fmt x ⟨some dp,some mode,none,none⟩ = .ok text ∧
    (Format.parseAmount text mode' = .ok x ↔
    stroopDecimals ≤ dp ∨ 10 ^ (stroopDecimals - dp) ∣ x) := by
  have hscl : ((stroopScale : ℤ) : ℚ) = 10 ^ stroopDecimals := by
    norm_num [stroopScale,stroopDecimals]
  by_cases hd : stroopDecimals ≤ dp
  · have hsc : Format.scaledMagnitude x.natAbs dp mode =
        .ok ((x.natAbs * 10 ^ (dp - stroopDecimals) : ℕ) : ℤ) := by
      rw [Format.scaledMagnitude,if_pos hd]
      push_cast
      rfl
    have hst : ((x.natAbs * 10 ^ (dp - stroopDecimals) : ℕ) : ℚ) / 10 ^ dp * stroopScale =
        (x.natAbs : ℤ) := by
      have hw : (10 : ℚ) ^ dp = 10 ^ (dp - stroopDecimals) * 10 ^ stroopDecimals := by
        rw [← pow_add,Nat.sub_add_cancel hd]
      rw [hscl,hw,Nat.cast_mul,Nat.cast_pow,Nat.cast_ofNat,Int.cast_natCast]
      field_simp
    refine ⟨_,formatStroops_eq fmt x dp mode hsc,?_⟩
    rw [parseAmount_ofScaled _ _ _ _ hst]
    refine iff_of_true (congrArg Except.ok ?_) (.inl hd)
    have hz : x.natAbs * 10 ^ (dp - stroopDecimals) = 0 ↔ x = 0 := by
      rw [Nat.mul_eq_zero,Int.natAbs_eq_zero,or_iff_left (by positivity)]
    simp only [decide_eq_true_eq,Ne,hz]
    split <;> omega
  · have hl : dp < stroopDecimals := Nat.lt_of_not_le hd
    obtain ⟨_,hq,hr⟩ := Decimal.roundDiv_spec x.natAbs
      (pow_ne_zero (stroopDecimals - dp) (by decide : (10 : ℤ) ≠ 0)) mode
    obtain ⟨sc,rfl⟩ := Int.eq_ofNat_of_zero_le (hr.nonneg (by positivity))
    have hsc : Format.scaledMagnitude x.natAbs dp mode = .ok (sc : ℤ) := by
      rw [Format.scaledMagnitude,if_neg hd,Format.roundDiv_eq_decimal]
      exact hq
    have hst : (sc : ℚ) / 10 ^ dp * stroopScale = ((sc * 10 ^ (stroopDecimals - dp) : ℕ) : ℤ) := by
      have hw : (10 : ℚ) ^ stroopDecimals = 10 ^ (stroopDecimals - dp) * 10 ^ dp := by
        rw [← pow_add,Nat.sub_add_cancel hl.le]
      rw [hscl,hw]
      push_cast
      field_simp
    have he : 10 ^ (stroopDecimals - dp) ∣ x ↔ sc * 10 ^ (stroopDecimals - dp) = x.natAbs := by
      have hv : (10 : ℤ) ^ (stroopDecimals - dp) ∣ x ↔ 10 ^ (stroopDecimals - dp) ∣ x.natAbs := by
        rw [← Int.natCast_dvd]
        push_cast
        rfl
      rw [hv]
      refine ⟨?_,fun h => ⟨sc,by rw [← h,Nat.mul_comm]⟩⟩
      rintro ⟨c,hc⟩
      have ht : ((x.natAbs : ℤ) : ℚ) / ((10 ^ (stroopDecimals - dp) : ℤ) : ℚ) = (c : ℤ) := by
        rw [hc]
        push_cast
        field_simp
      rw [ht] at hr
      have hs : (sc : ℤ) = c := hr.unique (isRounding_self mode c)
      rw [hc,Nat.mul_comm,Int.natCast_inj.mp hs]
    refine ⟨_,formatStroops_eq fmt x dp mode hsc,?_⟩
    rw [parseAmount_ofScaled _ _ _ _ hst,or_iff_right hd,he,Except.ok.injEq]
    have hp : 0 < 10 ^ (stroopDecimals - dp) := by positivity
    have hz : sc * 10 ^ (stroopDecimals - dp) = 0 ↔ sc = 0 := by
      rw [Nat.mul_eq_zero,or_iff_left hp.ne']
    generalize sc * 10 ^ (stroopDecimals - dp) = stroops at hz
    simp only [decide_eq_true_eq,Ne,← hz]
    split <;> omega

end

/-- **Amounts as text.** What the backend writes, it reads back; the frontend reads the same stroops
as the backend, the exact value rounded in the given mode, as long as the sign does not matter; and
what the frontend displays is read back as the amount exactly if nothing was rounded. -/
theorem stroop_texts : (∀ (x : Int) (mode : RoundingMode),
      Decimal.toStroops (Decimal.fromStroops x) mode = .ok x) ∧
    (∀ (s : String) (mode : RoundingMode) (v : Int), Decimal.toStroops s mode = .ok v →
      Format.parseAmount s mode = .ok v ∧ ∃ n : Numeral, trim s.toList = n.text ∧
      (n.SignFree mode → IsRounding mode (n.value * stroopScale) v)) ∧
    ∀ (toLocaleString : Nat → String → List Char) (x : Int) (dp : Nat) (mode mode' : RoundingMode),
      ∃ text, Format.formatStroops toLocaleString x ⟨some dp,some mode,none,none⟩ = .ok text ∧
      (Format.parseAmount text mode' = .ok x ↔
      stroopDecimals ≤ dp ∨ 10 ^ (stroopDecimals - dp) ∣ x) := by
  refine ⟨toStroops_fromStroops,fun s mode v hv => ?_,parseAmount_formatStroops⟩
  obtain ⟨n,hn⟩ := exists_numeral_of_toStroops hv
  obtain ⟨_,hr,ho,he⟩ := readDecimal_text s n mode
  rw [toStroops_eq_readDecimal hn,hr] at hv
  cases hv
  refine ⟨?_,n,hn,isRounding_signed ho he⟩
  rw [parseAmount_eq_readDecimal hn,hr]

private def owedDust : Numeral where
  negative := true
  whole := ['0']
  fraction := ['0','0','0','0','0','0','0','1']
  whole_ne_nil := List.cons_ne_nil _ _
  whole_digits := List.all_eq_true.mp (by decide)
  fraction_digits := List.all_eq_true.mp (by decide)

/-- **The sign is taken off before rounding**: a tenth of a stroop that is owed is rounded down to
zero. And an amount may be displayed with two decimals and lose nothing. -/
theorem sign_before_rounding :
    (¬ ∀ (s : String) (mode : RoundingMode) (v : Int), Decimal.toStroops s mode = .ok v →
    ∀ n : Numeral, trim s.toList = n.text → IsRounding mode (n.value * stroopScale) v) ∧
    ¬ ∀ (toLocaleString : Nat → String → List Char) (x : Int) (dp : Nat) (mode : RoundingMode),
    ∃ text, Format.formatStroops toLocaleString x ⟨some dp,some mode,none,none⟩ = .ok text ∧
    (Format.parseAmount text mode = .ok x ↔ stroopDecimals ≤ dp) := by
  constructor
  · intro h
    have hr : Decimal.toStroops "-0.00000001" .Floor = .ok 0 := by rfl
    have hf : (0 : ℤ) = ⌊owedDust.value * stroopScale⌋ :=
      h _ _ _ hr owedDust (by decide +kernel)
    have ho : '1'.toNat - '0'.toNat = 1 := rfl
    have hv : owedDust.value * stroopScale = -1 / 10 := by
      norm_num [Numeral.value,Numeral.magnitude,Numeral.fractionValue,owedDust,stroopScale,
        bigInt,Nat.ofDigitChars,ho]
    rw [hv] at hf
    norm_num at hf
  · intro h
    obtain ⟨text,ht,hif⟩ := h (fun n _ => digits n) 0 2 .HalfEven
    have hz : Format.formatStroops (fun n _ => digits n) 0 ⟨some 2,some .HalfEven,none,none⟩ =
        .ok "0.00" := by rfl
    cases hz.symm.trans ht
    have hr : Format.parseAmount "0.00" .HalfEven = .ok 0 := by rfl
    exact absurd (hif.mp hr) (by decide)

end DukaPay
