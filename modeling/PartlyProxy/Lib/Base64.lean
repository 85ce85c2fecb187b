import Mathlib.Data.List.Basic

namespace Base64

def digit (v : Nat) : Char :=
  if v < 26 then Char.ofNat (65 + v)
  else if v < 52 then Char.ofNat (71 + v)
  else if v < 62 then Char.ofNat (v - 4)
  else if v = 62 then '+'
  else '/'

def value (c : Char) : Option Nat :=
  if 'A' ≤ c ∧ c ≤ 'Z' then some (c.toNat - 65)
  else if 'a' ≤ c ∧ c ≤ 'z' then some (c.toNat - 71)
  else if '0' ≤ c ∧ c ≤ '9' then some (c.toNat + 4)
  else if c = '+' then some 62
  else if c = '/' then some 63
  else none

/-- Three bytes become four digits; the last group is padded. -/
def encode : List UInt8 → List Char
  | [] => []
  | [a] => [digit (a.toNat / 4), digit (a.toNat % 4 * 16), '=', '=']
  | [a, b] =>
    [digit (a.toNat / 4), digit (a.toNat % 4 * 16 + b.toNat / 16), digit (b.toNat % 16 * 4), '=']
  | a :: b :: c :: rest =>
    digit (a.toNat / 4) :: digit (a.toNat % 4 * 16 + b.toNat / 16) ::
      digit (b.toNat % 16 * 4 + c.toNat / 64) :: digit (c.toNat % 64) :: encode rest

/-- Only the last group may be padded, and the bits its padding stands for are zero. -/
def decode : List Char → Option (List UInt8)
  | [] => some []
  | w :: x :: y :: z :: rest => do
    let w ← value w
    let x ← value x
    if y = '=' then
      if z = '=' ∧ rest = [] ∧ x % 16 = 0 then some [UInt8.ofNat (w * 4 + x / 16)] else none
    else
      let y ← value y
      if z = '=' then
        if rest = [] ∧ y % 4 = 0 then
          some [UInt8.ofNat (w * 4 + x / 16), UInt8.ofNat (x % 16 * 16 + y / 4)]
        else none
      else
        let z ← value z
        let bytes ← decode rest
        some (UInt8.ofNat (w * 4 + x / 16) :: UInt8.ofNat (x % 16 * 16 + y / 4) :: UInt8.ofNat (y % 4 * 64 + z) :: bytes)
  | _ => none

theorem value_digit_fin : ∀ v : Fin 64, value (digit v) = some v.val ∧ digit v ≠ '=' := by decide

@[simp] theorem value_digit {v : Nat} (small : v < 64) : value (digit v) = some v := (value_digit_fin ⟨v, small⟩).1

@[simp] theorem digit_ne_pad {v : Nat} (small : v < 64) : digit v ≠ '=' := (value_digit_fin ⟨v, small⟩).2

theorem ofNat_eq_of_toNat {a : UInt8} {n : Nat} (same : n = a.toNat) : UInt8.ofNat n = a := by
  rw [same, UInt8.ofNat_toNat]

theorem group_bytes (a b c : UInt8) :
    UInt8.ofNat (a.toNat / 4 * 4 + (a.toNat % 4 * 16 + b.toNat / 16) / 16) = a ∧
      UInt8.ofNat ((a.toNat % 4 * 16 + b.toNat / 16) % 16 * 16 + (b.toNat % 16 * 4 + c.toNat / 64) / 4) = b ∧
      UInt8.ofNat ((b.toNat % 16 * 4 + c.toNat / 64) % 4 * 64 + c.toNat % 64) = c := by
  have := a.toNat_lt
  have := b.toNat_lt
  have := c.toNat_lt
  refine ⟨ofNat_eq_of_toNat ?_, ofNat_eq_of_toNat ?_, ofNat_eq_of_toNat ?_⟩ <;> omega

theorem decode_encode (bytes : List UInt8) : decode (encode bytes) = some bytes := by
  fun_induction encode bytes with
  | case1 => rfl
  | case2 a =>
    have small := a.toNat_lt
    have byte := (group_bytes a 0 0).1
    have aligned : a.toNat % 4 * 16 % 16 = 0 := by omega
    simp only [UInt8.toNat_zero, Nat.zero_div, Nat.add_zero] at byte
    simp (disch := omega) only [decode, value_digit, Option.bind_eq_bind, Option.bind_some, aligned, byte,
      and_self, if_true]
  | case3 a b =>
    have smallA := a.toNat_lt
    have smallB := b.toNat_lt
    obtain ⟨first, second, _⟩ := group_bytes a b 0
    have aligned : b.toNat % 16 * 4 % 4 = 0 := by omega
    simp only [UInt8.toNat_zero, Nat.zero_div, Nat.add_zero] at second
    simp (disch := omega) only [decode, value_digit, digit_ne_pad, Option.bind_eq_bind, Option.bind_some, aligned,
      first, second, and_self, if_true, if_false]
  | case4 a b c rest ih =>
    have smallA := a.toNat_lt
    have smallB := b.toNat_lt
    have smallC := c.toNat_lt
    obtain ⟨first, second, third⟩ := group_bytes a b c
    simp (disch := omega) only [decode, value_digit, digit_ne_pad, Option.bind_eq_bind, Option.bind_some, ih,
      first, second, third, if_false]

end Base64
