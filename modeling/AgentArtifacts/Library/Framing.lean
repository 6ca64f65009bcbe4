import Mathlib.Algebra.Ring.Nat
import Mathlib.Data.List.Basic

/-!
# Fixed-width integers, hexadecimal text and length frames

Big-endian integers of a given width, the hexadecimal text of bytes, and length
prefixed frames. Each encoding is injective where the width suffices, and a
concatenation of frames determines the framed parts.
-/

namespace Framing

abbrev Octets := List UInt8

/-! ## Integers -/

/-- The `width` low-order octets of `n`, most significant first. -/
def bigEndian : Nat → Nat → Octets
  | 0, _ => []
  | width + 1, n => bigEndian width (n / 256) ++ [UInt8.ofNat (n % 256)]

@[simp] theorem bigEndian_length (width n : Nat) : (bigEndian width n).length = width := by
  induction width generalizing n with
  | zero => rfl
  | succ width ih => simp [bigEndian, ih]

theorem bigEndian_injective {width m n : Nat} (hm : m < 256 ^ width) (hn : n < 256 ^ width)
    (h : bigEndian width m = bigEndian width n) : m = n := by
  induction width generalizing m n with
  | zero => simp at hm hn; omega
  | succ width ih =>
      simp only [bigEndian] at h
      have hlen : (bigEndian width (m / 256)).length = (bigEndian width (n / 256)).length := by simp
      obtain ⟨hhigh, hlow⟩ := List.append_inj h hlen
      have hdiv : m / 256 = n / 256 := by
        refine ih ?_ ?_ hhigh
        · rw [Nat.pow_succ] at hm; omega
        · rw [Nat.pow_succ] at hn; omega
      have hmod : m % 256 = n % 256 := by
        have hbyte := congrArg UInt8.toNat (List.cons.inj hlow).1
        simpa using hbyte
      omega

/-! ## Hexadecimal text -/

def hexDigit (n : Nat) : Char := Char.ofNat (if n < 10 then 48 + n else 87 + n)

def hexValue (c : Char) : Nat := if c.toNat < 58 then c.toNat - 48 else c.toNat - 87

def hexChars : Octets → List Char
  | [] => []
  | octet :: rest => hexDigit (octet.toNat / 16) :: hexDigit (octet.toNat % 16) :: hexChars rest

/-- `bytes.fromhex` on lower-case digits. -/
def unhexChars : List Char → Octets
  | high :: low :: rest => UInt8.ofNat (16 * hexValue high + hexValue low) :: unhexChars rest
  | _ => []

theorem hexValue_hexDigit (n : Nat) (h : n < 16) : hexValue (hexDigit n) = n := by
  have hall : ∀ m < 16, hexValue (hexDigit m) = m := by decide
  exact hall n h

theorem unhexChars_hexChars (octets : Octets) : unhexChars (hexChars octets) = octets := by
  induction octets with
  | nil => rfl
  | cons octet rest ih =>
      have hlt : octet.toNat < 256 := octet.toNat_lt
      have hhigh := hexValue_hexDigit (octet.toNat / 16) (by omega)
      have hlow := hexValue_hexDigit (octet.toNat % 16) (by omega)
      have hvalue : 16 * (octet.toNat / 16) + octet.toNat % 16 = octet.toNat := by omega
      simp only [hexChars, unhexChars, hhigh, hlow, hvalue, ih]
      simp

theorem exists_hexChars {chars : List Char} (heven : chars.length % 2 = 0)
    (hdigits : ∀ c ∈ chars, ∃ n < 16, hexDigit n = c) : ∃ octets, hexChars octets = chars := by
  induction chars using unhexChars.induct with
  | case1 high low rest ih =>
      obtain ⟨m, hm, rfl⟩ := hdigits high (by simp)
      obtain ⟨n, hn, rfl⟩ := hdigits low (by simp)
      simp only [List.length_cons] at heven
      obtain ⟨octets, rfl⟩ := ih (by omega) fun c hc => hdigits c (by simp [hc])
      have hvalue : (UInt8.ofNat (16 * m + n)).toNat = 16 * m + n := by
        rw [UInt8.toNat_ofNat']
        omega
      have hhigh : (16 * m + n) / 16 = m := by omega
      have hlow : (16 * m + n) % 16 = n := by omega
      exact ⟨UInt8.ofNat (16 * m + n) :: octets, by rw [hexChars, hvalue, hhigh, hlow]⟩
  | case2 chars hshort =>
      cases chars with
      | nil => exact ⟨[], rfl⟩
      | cons c rest =>
          cases rest with
          | nil => simp at heven
          | cons d others => exact absurd rfl (hshort c d others)

/-- Hexadecimal texts of whole octets are determined by the octets. -/
theorem unhexChars_injective {left right : List Char} (hleft : left.length % 2 = 0) (hright : right.length % 2 = 0)
    (hl : ∀ c ∈ left, ∃ n < 16, hexDigit n = c) (hr : ∀ c ∈ right, ∃ n < 16, hexDigit n = c)
    (h : unhexChars left = unhexChars right) : left = right := by
  obtain ⟨a, rfl⟩ := exists_hexChars hleft hl
  obtain ⟨b, rfl⟩ := exists_hexChars hright hr
  rw [unhexChars_hexChars, unhexChars_hexChars] at h
  rw [h]

/-! ## Frames -/

/-- The octets preceded by their number in eight octets. -/
def frame (octets : Octets) : Octets := bigEndian 8 octets.length ++ octets

theorem frame_append_inj {a b s t : Octets} (ha : a.length < 256 ^ 8) (hb : b.length < 256 ^ 8)
    (h : frame a ++ s = frame b ++ t) : a = b ∧ s = t := by
  simp only [frame, List.append_assoc] at h
  obtain ⟨hsize, hrest⟩ := List.append_inj h (by simp)
  have hlen : a.length = b.length := bigEndian_injective ha hb hsize
  exact List.append_inj hrest hlen

theorem frame_ne_nil (octets : Octets) : frame octets ≠ [] := by
  intro h
  have hlen := congrArg List.length h
  simp [frame] at hlen

/-- Parts that fit their frames are determined by the concatenated frames. -/
theorem flatMap_frame_injective {left right : List Octets}
    (hleft : ∀ part ∈ left, part.length < 256 ^ 8)
    (hright : ∀ part ∈ right, part.length < 256 ^ 8)
    (h : left.flatMap frame = right.flatMap frame) : left = right := by
  induction left generalizing right with
  | nil =>
      cases right with
      | nil => rfl
      | cons b bs =>
          simp only [List.flatMap_nil, List.flatMap_cons] at h
          exact absurd (List.append_eq_nil_iff.mp h.symm).1 (frame_ne_nil b)
  | cons a as ih =>
      cases right with
      | nil =>
          simp only [List.flatMap_nil, List.flatMap_cons] at h
          exact absurd (List.append_eq_nil_iff.mp h).1 (frame_ne_nil a)
      | cons b bs =>
          simp only [List.flatMap_cons] at h
          have ha : a.length < 256 ^ 8 := hleft a (by simp)
          have hb : b.length < 256 ^ 8 := hright b (by simp)
          obtain ⟨hhead, htail⟩ := frame_append_inj ha hb h
          have hrest : as = bs :=
            ih (fun part hp => hleft part (by simp [hp])) (fun part hp => hright part (by simp [hp]))
              htail
          rw [hhead, hrest]

end Framing
