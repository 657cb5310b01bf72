import Mathlib.Tactic.Ring

/-! Strings as JavaScript sees them: strings are lists of characters here. -/
namespace DukaPay.JavaScript
open List Option

def isSpace (c : Char) : Bool :=
  let n := c.toNat
  decide ((9 ≤ n ∧ n ≤ 13) ∨ n = 32 ∨ n = 0xA0 ∨ n = 0x1680 ∨ (0x2000 ≤ n ∧ n ≤ 0x200A) ∨
    n = 0x2028 ∨ n = 0x2029 ∨ n = 0x202F ∨ n = 0x205F ∨ n = 0x3000 ∨ n = 0xFEFF)

def trim (text : List Char) : List Char :=
  ((text.dropWhile isSpace).reverse.dropWhile isSpace).reverse

variable {text : List Char}

lemma trim_of_forall (h : ∀ c ∈ text, isSpace c = false) : trim text = text := by
  have hd : ∀ l : List Char, (∀ c ∈ l, isSpace c = false) → l.dropWhile isSpace = l := by
    intro l hl
    cases l with
    | nil => rfl
    | cons c => rw [dropWhile_cons_of_neg (by rw [hl c mem_cons_self]; decide)]
  rw [trim,hd text h,hd _ fun c hc => h c (mem_reverse.mp hc),reverse_reverse]

def split (separator : Char) : List Char → List (List Char)
  | [] => [[]]
  | c :: text =>
    if c = separator then [] :: split separator text
    else match split separator text with
      | [] => [[c]]
      | part :: parts => (c :: part) :: parts

section
variable {separator : Char} {text : List Char}

lemma split_of_notMem (h : separator ∉ text) : split separator text = [text] := by
  induction text with
  | nil => rfl
  | cons c text ih =>
    rw [mem_cons,not_or] at h
    rw [split,if_neg (Ne.symm h.1),ih h.2]

lemma split_append (h : separator ∉ text) (rest) :
    split separator (text ++ separator :: rest) = text :: split separator rest := by
  induction text with
  | nil => rw [nil_append,split,if_pos rfl]
  | cons c text ih =>
    rw [mem_cons,not_or] at h
    rw [cons_append,split,if_neg (Ne.symm h.1),ih h.2]

end

def padStart (width : Nat) (filler : Char) (text : List Char) : List Char :=
  List.replicate (width - text.length) filler ++ text

def padEnd (width : Nat) (filler : Char) (text : List Char) : List Char :=
  text ++ List.replicate (width - text.length) filler

def digits (n : Nat) : List Char := Nat.toDigits 10 n

def bigInt (text : List Char) : Nat := Nat.ofDigitChars 10 text 0

section

lemma bigInt_digits (n) : bigInt (digits n) = n := Nat.ofDigitChars_toDigits (by decide) (by decide)

variable {c : Char}

lemma isDigit_digits {n} (h : c ∈ digits n) : c.isDigit = true :=
  Nat.isDigit_of_mem_toDigits (by decide) (by decide) h

lemma digits_ne_nil (n) : digits n ≠ [] := Nat.toDigits_ne_nil

lemma ofDigitChars_eq (text n) :
    Nat.ofDigitChars 10 text n = n * 10 ^ text.length + bigInt text := by
  rw [bigInt]
  induction text generalizing n with
  | nil => simp
  | cons c text ih =>
    rw [Nat.ofDigitChars_cons,Nat.ofDigitChars_cons,ih,ih (10 * 0 + _),length_cons]
    ring

lemma bigInt_append (text rest) :
    bigInt (text ++ rest) = bigInt text * 10 ^ rest.length + bigInt rest := by
  rw [bigInt,Nat.ofDigitChars_append,ofDigitChars_eq]
  rfl

lemma bigInt_replicate_zero (n) : bigInt (List.replicate n '0') = 0 := by
  rw [bigInt,Nat.ofDigitChars_replicate_zero,Nat.mul_zero]

lemma bigInt_padStart (wd text) : bigInt (padStart wd '0' text) = bigInt text := by
  rw [padStart,bigInt_append,bigInt_replicate_zero,Nat.zero_mul,Nat.zero_add]

lemma bigInt_padEnd (wd text) :
    bigInt (padEnd wd '0' text) = bigInt text * 10 ^ (wd - text.length) := by
  rw [padEnd,bigInt_append,bigInt_replicate_zero,length_replicate,Nat.add_zero]

lemma length_padStart_digits {width n} (hw : 0 < width) (h : n < 10 ^ width) :
    (padStart width '0' (digits n)).length = width := by
  have hl : (digits n).length ≤ width := (Nat.length_toDigits_le_iff (by decide) hw).mpr h
  rw [padStart,length_append,length_replicate]
  omega

lemma isDigit_padStart {wd n} (h : c ∈ padStart wd '0' (digits n)) : c.isDigit = true := by
  rcases mem_append.mp h with h | h
  · rw [(mem_replicate.mp h).2]
    decide
  · exact isDigit_digits h

lemma isSpace_of_isDigit (h : c.isDigit = true) : isSpace c = false := by
  rw [Char.isDigit,Bool.and_eq_true,decide_eq_true_eq,decide_eq_true_eq] at h
  obtain ⟨hl,hh⟩ := h
  have hl : 48 ≤ c.toNat := hl
  have hh : c.toNat ≤ 57 := hh
  simp only [isSpace,decide_eq_false_iff_not]
  omega

lemma ne_of_isDigit {d : Char} (h : c.isDigit = true) (hd : d.isDigit = false) : c ≠ d := by
  rintro rfl
  rw [h] at hd
  cases hd

end

/-! ### Integers as text -/

def digitValue (c : Char) : Option Nat :=
  if c.isDigit then some (c.toNat - 48)
  else if 97 ≤ c.toNat ∧ c.toNat ≤ 102 then some (c.toNat - 87)
  else if 65 ≤ c.toNat ∧ c.toNat ≤ 70 then some (c.toNat - 55)
  else none

def readDigitsFrom (radix : Nat) : Nat → List Char → Option Nat
  | n,[] => some n
  | n,c :: text => do
    let d ← digitValue c
    if d < radix then readDigitsFrom radix (n * radix + d) text else none

def readDigits (radix : Nat) (text : List Char) : Option Nat :=
  if text = [] then none else readDigitsFrom radix 0 text

def readMarked : List Char → Option Int
  | '-' :: text => (readDigits 10 text).map fun n : Nat => -(n : Int)
  | '+' :: text => (readDigits 10 text).map Int.ofNat
  | '0' :: radix :: text =>
    if radix = 'x' ∨ radix = 'X' then (readDigits 16 text).map Int.ofNat
    else if radix = 'o' ∨ radix = 'O' then (readDigits 8 text).map Int.ofNat
    else if radix = 'b' ∨ radix = 'B' then (readDigits 2 text).map Int.ofNat
    else none
  | _ => none

def stringToBigInt (text : List Char) : Option Int :=
  let body := trim text
  if body = [] then some 0
  else (readDigits 10 body).map Int.ofNat <|> readMarked body

def bigIntToString (n : Int) : List Char :=
  if n < 0 then '-' :: digits n.natAbs else digits n.natAbs

def parseInt (text : List Char) : Option Int :=
  let body := text.dropWhile isSpace
  let negative := body.head? == some '-'
  let number := if negative || body.head? == some '+' then body.tail else body
  let ds := number.takeWhile Char.isDigit
  if ds = [] then none
  else some (if negative then -(bigInt ds : Int) else bigInt ds)

/-- `Number.isFinite` of the `number` next to an integer: from half a unit after the greatest
`number` on, it is infinite. -/
def isFinite (n : Int) : Bool := decide (n.natAbs < Nat.pow 2 1024 - Nat.pow 2 970)

section

lemma readDigitsFrom_digits {text} (h : ∀ c ∈ text, c.isDigit = true) (n) :
    readDigitsFrom 10 n text = some (Nat.ofDigitChars 10 text n) := by
  induction text generalizing n with
  | nil => rfl
  | cons c text ih =>
    have hc := h c mem_cons_self
    have hv : digitValue c = some (c.toNat - 48) := by rw [digitValue,if_pos hc]
    have hl : c.toNat - 48 < 10 := by
      rw [Char.isDigit,Bool.and_eq_true,decide_eq_true_eq,decide_eq_true_eq] at hc
      have hh : c.toNat ≤ 57 := hc.2
      omega
    rw [readDigitsFrom,hv,bind_eq_bind,bind_some,if_pos hl,
      ih (fun c hc => h c (mem_cons_of_mem _ hc)),Nat.ofDigitChars_cons,Nat.mul_comm]
    rfl

lemma readDigits_digits (n) : readDigits 10 (digits n) = some n := by
  rw [readDigits,if_neg (digits_ne_nil n),readDigitsFrom_digits fun _ => isDigit_digits]
  exact congrArg some (bigInt_digits n)

lemma bigIntToString_ne_nil (n) : bigIntToString n ≠ [] := by
  rw [bigIntToString]
  split
  · exact cons_ne_nil _ _
  · exact digits_ne_nil _

lemma mem_bigIntToString {n c} (h : c ∈ bigIntToString n) : c = '-' ∨ c.isDigit = true := by
  rw [bigIntToString] at h
  split at h
  · rcases mem_cons.mp h with rfl | h
    · exact .inl rfl
    · exact .inr (isDigit_digits h)
  · exact .inr (isDigit_digits h)

lemma stringToBigInt_bigIntToString (n) : stringToBigInt (bigIntToString n) = some n := by
  have ht : trim (bigIntToString n) = bigIntToString n := by
    refine trim_of_forall fun c hc => ?_
    rcases mem_bigIntToString hc with rfl | hc
    · decide
    · exact isSpace_of_isDigit hc
  simp only [stringToBigInt,ht,if_neg (bigIntToString_ne_nil n)]
  rw [bigIntToString]
  split
  · next hn =>
    have hp : readDigits 10 ('-' :: digits n.natAbs) = none := rfl
    have hm : -(n.natAbs : Int) = n := by omega
    rw [hp,readMarked,readDigits_digits,map_some,hm]
    rfl
  · next hn =>
    have ha : Int.ofNat n.natAbs = n := Int.natAbs_of_nonneg (Int.not_lt.mp hn)
    rw [readDigits_digits,map_some,ha]
    rfl

end

/-! ### JSON -/

def hexadecimal (n : Nat) : Char := Nat.digitChar (n % 16)

def escape (c : Char) : List Char :=
  if c = '\x22' then ['\x5c','\x22']
  else if c = '\x5c' then ['\x5c','\x5c']
  else if c.toNat = 8 then ['\x5c','b']
  else if c.toNat = 9 then ['\x5c','t']
  else if c.toNat = 10 then ['\x5c','n']
  else if c.toNat = 12 then ['\x5c','f']
  else if c.toNat = 13 then ['\x5c','r']
  else if c.toNat < 32 then ['\x5c','u','0','0',hexadecimal (c.toNat / 16),hexadecimal c.toNat]
  else [c]

def quote (text : List Char) : List Char := '\x22' :: text.flatMap escape ++ ['\x22']

def Plain (text : List Char) : Prop := ∀ c ∈ text, escape c = [c]

instance (text : List Char) : Decidable (Plain text) :=
  List.decidableBAll (fun c => escape c = [c]) text

lemma quote_of_plain (h : Plain text) : quote text = '\x22' :: text ++ ['\x22'] := by
  have hf : text.flatMap escape = text := by
    rw [flatMap_def,map_congr_left h,← flatMap_def,flatMap_singleton']
  rw [quote,hf]

lemma quotation_notMem_of_plain (h : Plain text) : '\x22' ∉ text := by
  intro hm
  have he := h _ hm
  cases he

lemma escape_of_isDigit {c : Char} (h : c.isDigit = true) : escape c = [c] := by
  have hl : 48 ≤ c.toNat := by
    rw [Char.isDigit,Bool.and_eq_true,decide_eq_true_eq,decide_eq_true_eq] at h
    exact h.1
  have hq : c ≠ '\x22' := ne_of_isDigit h (by decide)
  have hs : c ≠ '\x5c' := ne_of_isDigit h (by decide)
  rw [escape,if_neg hq,if_neg hs,if_neg (by omega),if_neg (by omega),if_neg (by omega),
    if_neg (by omega),if_neg (by omega),if_neg (by omega)]

lemma plain_bigIntToString (n) : Plain (bigIntToString n) := by
  intro c hc
  rcases mem_bigIntToString hc with rfl | hc
  · rfl
  · exact escape_of_isDigit hc

end DukaPay.JavaScript
