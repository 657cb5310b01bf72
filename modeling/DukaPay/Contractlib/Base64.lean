import Mathlib.Tactic.Common

/-! Three bytes are written as four characters, each for six bits. -/
namespace Contractlib.Base64
open List

def symbol (n : Nat) : Char :=
  if n < 26 then Char.ofNat (n + 65)
  else if n < 52 then Char.ofNat (n + 71)
  else if n < 62 then Char.ofNat (n - 4)
  else if n = 62 then '+'
  else '/'

def value (c : Char) : Option Nat :=
  if c.isUpper then some (c.toNat - 65)
  else if c.isLower then some (c.toNat - 71)
  else if c.isDigit then some (c.toNat + 4)
  else if c = '+' ∨ c = '-' then some 62
  else if c = '/' ∨ c = '_' then some 63
  else none

lemma value_symbol : ∀ n < 64, value (symbol n) = some n := by decide

def encode : List UInt8 → List Char
  | [] => []
  | [a] => [symbol (a.toNat / 4),symbol (a.toNat % 4 * 16),'=','=']
  | [a,b] =>
    [symbol (a.toNat / 4),symbol (a.toNat % 4 * 16 + b.toNat / 16),symbol (b.toNat % 16 * 4),'=']
  | a :: b :: c :: bytes =>
    symbol (a.toNat / 4) :: symbol (a.toNat % 4 * 16 + b.toNat / 16) ::
      symbol (b.toNat % 16 * 4 + c.toNat / 64) :: symbol (c.toNat % 64) :: encode bytes

def join : List Nat → List UInt8
  | s :: t :: u :: v :: groups =>
    .ofNat (s * 4 + t / 16) :: .ofNat (t % 16 * 16 + u / 4) :: .ofNat (u % 4 * 64 + v) ::
      join groups
  | [s,t,u] => [.ofNat (s * 4 + t / 16),.ofNat (t % 16 * 16 + u / 4)]
  | [s,t] => [.ofNat (s * 4 + t / 16)]
  | _ => []

def decode (text : List Char) : List UInt8 := join (text.filterMap value)

lemma ofNat_eq {a : UInt8} {n} (h : n = a.toNat) : UInt8.ofNat n = a := by
  rw [h,UInt8.ofNat_toNat]

lemma decode_encode (bytes) : decode (encode bytes) = bytes := by
  -- three bytes are four groups of six bits, each smaller than 64
  have hp : value '=' = none := by decide
  rw [decode]
  fun_induction encode bytes with
  | case1 => rfl
  | case2 a =>
    have ha := a.toNat_lt
    simp only [filterMap_cons,filterMap_nil,hp,join,
      value_symbol (a.toNat / 4) (by omega),value_symbol (a.toNat % 4 * 16) (by omega)]
    rw [ofNat_eq (show _ = a.toNat by omega)]
  | case3 a b =>
    have ha := a.toNat_lt
    have hb := b.toNat_lt
    simp only [filterMap_cons,filterMap_nil,hp,join,value_symbol (a.toNat / 4) (by omega),
      value_symbol (a.toNat % 4 * 16 + b.toNat / 16) (by omega),
      value_symbol (b.toNat % 16 * 4) (by omega)]
    rw [ofNat_eq (show _ = a.toNat by omega),ofNat_eq (show _ = b.toNat by omega)]
  | case4 a b c bytes ih =>
    have ha := a.toNat_lt
    have hb := b.toNat_lt
    have hc := c.toNat_lt
    simp only [filterMap_cons,join,ih,value_symbol (a.toNat / 4) (by omega),
      value_symbol (a.toNat % 4 * 16 + b.toNat / 16) (by omega),
      value_symbol (b.toNat % 16 * 4 + c.toNat / 64) (by omega),
      value_symbol (c.toNat % 64) (by omega)]
    rw [ofNat_eq (show _ = a.toNat by omega),ofNat_eq (show _ = b.toNat by omega),
      ofNat_eq (show _ = c.toNat by omega)]

lemma mem_encode {bs c} (h : c ∈ encode bs) : c = '=' ∨ ∃ n < 64, c = symbol n := by
  fun_induction encode bs with
  | case1 => cases h
  | case2 a =>
    have ha := a.toNat_lt
    simp only [mem_cons,not_mem_nil,or_false] at h
    rcases h with h | h | h | h
    · exact .inr ⟨_,by omega,h⟩
    · exact .inr ⟨_,by omega,h⟩
    · exact .inl h
    · exact .inl h
  | case3 a b =>
    have ha := a.toNat_lt
    have hb := b.toNat_lt
    simp only [mem_cons,not_mem_nil,or_false] at h
    rcases h with h | h | h | h
    · exact .inr ⟨_,by omega,h⟩
    · exact .inr ⟨_,by omega,h⟩
    · exact .inr ⟨_,by omega,h⟩
    · exact .inl h
  | case4 a b c bs ih =>
    have ha := a.toNat_lt
    have hb := b.toNat_lt
    have hc := c.toNat_lt
    simp only [mem_cons] at h
    rcases h with h | h | h | h | h
    · exact .inr ⟨_,by omega,h⟩
    · exact .inr ⟨_,by omega,h⟩
    · exact .inr ⟨_,by omega,h⟩
    · exact .inr ⟨_,by omega,h⟩
    · exact ih h

/-! ### Changes that decoding does not see -/

variable {text : List Char}

lemma decode_map {f} (h : ∀ c, value (f c) = value c) : decode (text.map f) = decode text := by
  have hv : value ∘ f = value := funext h
  rw [decode,decode,filterMap_map,hv]

lemma decode_filter {p} (h : ∀ c, p c = false → value c = none) :
    decode (text.filter p) = decode text := by
  have hv : (fun c => if p c then value c else none) = value := by
    funext c
    cases hp : p c with
    | true => rfl
    | false => exact (h c hp).symm
  rw [decode,decode,filterMap_filter,hv]

lemma decode_append {l} (h : ∀ c ∈ l, value c = none) : decode (text ++ l) = decode text := by
  rw [decode,decode,filterMap_append,filterMap_eq_nil_iff.mpr h,append_nil]

end Contractlib.Base64
