import Mathlib.Data.List.Basic

/-!
# Base64

The standard encoding of octets, four characters for three octets with padding at
the end, and its decoding. The octets are read back from the characters, which
therefore determine them.
-/

namespace Base64

/-- The character of six bits: capitals, small letters, digits, plus and slash. -/
def digit (n : Nat) : Char :=
  if n < 26 then Char.ofNat (65 + n)
  else if n < 52 then Char.ofNat (71 + n)
  else if n < 62 then Char.ofNat (n - 4)
  else if n = 62 then '+'
  else '/'

def encode : List UInt8 → List Char
  | [] => []
  | [a] => [digit (a.toNat / 4), digit (a.toNat % 4 * 16), '=', '=']
  | [a, b] =>
      [digit (a.toNat / 4), digit (a.toNat % 4 * 16 + b.toNat / 16), digit (b.toNat % 16 * 4), '=']
  | a :: b :: c :: rest =>
      digit (a.toNat / 4) :: digit (a.toNat % 4 * 16 + b.toNat / 16) ::
        digit (b.toNat % 16 * 4 + c.toNat / 64) :: digit (c.toNat % 64) :: encode rest

/-! ## Characters determine bits -/

/-- The six bits of a character of the alphabet. -/
def value? (c : Char) : Option Nat :=
  if c = '+' then some 62
  else if c = '/' then some 63
  else if c.isDigit then some (c.toNat + 4)
  else if c.isUpper then some (c.toNat - 65)
  else if c.isLower then some (c.toNat - 71)
  else none

theorem value?_digit {n : Nat} (h : n < 64) : value? (digit n) = some n := by
  have hall : ∀ m < 64, value? (digit m) = some m := by decide
  exact hall n h

theorem digit_ne_padding {n : Nat} (h : n < 64) : digit n ≠ '=' := by
  have hall : ∀ m < 64, digit m ≠ '=' := by decide
  exact hall n h

/-! ## Decoding -/

/-- Groups of four characters; only the last one may be padded. -/
def decode : List Char → Option (List UInt8)
  | [] => some []
  | a :: b :: c :: d :: rest => do
      let p ← value? a
      let q ← value? b
      if rest = [] ∧ d = '=' then
        if c = '=' then some [UInt8.ofNat (p * 4 + q / 16)]
        else
          let r ← value? c
          some [UInt8.ofNat (p * 4 + q / 16), UInt8.ofNat (q % 16 * 16 + r / 4)]
      else
        let r ← value? c
        let s ← value? d
        let tail ← decode rest
        some (UInt8.ofNat (p * 4 + q / 16) :: UInt8.ofNat (q % 16 * 16 + r / 4) ::
          UInt8.ofNat (r % 4 * 64 + s) :: tail)
  | _ => none

theorem ofNat_eq {n : Nat} {octet : UInt8} (h : n = octet.toNat) : UInt8.ofNat n = octet := by
  rw [h, UInt8.ofNat_toNat]

/-- By the groups of three octets; the padding tells the lengths of the last ones apart. -/
theorem decode_encode : ∀ octets : List UInt8, decode (encode octets) = some octets
  | [] => rfl
  | [a] => by
      have ha := a.toNat_lt
      have hfirst : a.toNat / 4 * 4 + a.toNat % 4 * 16 / 16 = a.toNat := by omega
      rw [encode, decode, value?_digit (by omega), value?_digit (by omega)]
      simp only [Option.bind_eq_bind, Option.bind_some, and_self, if_true, ofNat_eq hfirst]
  | [a, b] => by
      have ha := a.toNat_lt
      have hb := b.toNat_lt
      have hfirst : a.toNat / 4 * 4 + (a.toNat % 4 * 16 + b.toNat / 16) / 16 = a.toNat := by omega
      have hsecond : (a.toNat % 4 * 16 + b.toNat / 16) % 16 * 16 + b.toNat % 16 * 4 / 4 = b.toNat := by omega
      rw [encode, decode, value?_digit (by omega), value?_digit (by omega), value?_digit (by omega)]
      simp only [Option.bind_eq_bind, Option.bind_some, and_self, if_true,
        if_neg (digit_ne_padding (by omega : b.toNat % 16 * 4 < 64)), ofNat_eq hfirst, ofNat_eq hsecond]
  | a :: b :: c :: rest => by
      have ha := a.toNat_lt
      have hb := b.toNat_lt
      have hc := c.toNat_lt
      have hfirst : a.toNat / 4 * 4 + (a.toNat % 4 * 16 + b.toNat / 16) / 16 = a.toNat := by omega
      have hsecond :
          (a.toNat % 4 * 16 + b.toNat / 16) % 16 * 16 + (b.toNat % 16 * 4 + c.toNat / 64) / 4 = b.toNat := by omega
      have hthird : (b.toNat % 16 * 4 + c.toNat / 64) % 4 * 64 + c.toNat % 64 = c.toNat := by omega
      rw [encode, decode, value?_digit (by omega), value?_digit (by omega), value?_digit (by omega),
        value?_digit (by omega), decode_encode rest]
      simp only [Option.bind_eq_bind, Option.bind_some, digit_ne_padding (by omega : c.toNat % 64 < 64), and_false,
        if_false, ofNat_eq hfirst, ofNat_eq hsecond, ofNat_eq hthird]

theorem encode_injective {left right : List UInt8} (h : encode left = encode right) : left = right := by
  have hsome : some left = some right := by
    rw [← decode_encode left, ← decode_encode right, h]
  exact Option.some.inj hsome

theorem length_encode_le : ∀ octets : List UInt8, 3 * (encode octets).length ≤ 4 * octets.length + 8
  | [] => by simp [encode]
  | [_] => by simp [encode]
  | [_, _] => by simp [encode]
  | _ :: _ :: _ :: rest => by
      have hrest := length_encode_le rest
      simp only [encode, List.length_cons]
      omega

example : decode "TWE=".toList = some [77, 97] := by decide

end Base64
