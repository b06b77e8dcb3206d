import Mathlib.Data.Fintype.Basic
import Mathlib.Data.Option.Basic

/-!
# Base64

Three bytes are written as four characters of six bits each, and the last one or two bytes are
padded. Encoding and decoding are inverse to each other: a text is accepted only if it is the
encoding of what it is decoded to, so bits that the last bytes do not use must be zero.
-/

namespace Azul.Foundation.Base64

/-! ## Digits -/

/-- The code of the character of a digit. -/
def symbol (n : Nat) : Nat :=
  if n < 26 then n + 65
  else if n < 52 then n + 71
  else if n < 62 then n - 4
  else if n < 63 then 43
  else 47

/-- The character of a digit. -/
def digit (n : Fin 64) : Char := Char.ofNat (symbol n)

/-- The digit of a character. -/
def value (c : Char) : Option (Fin 64) :=
  if upper : 65 ≤ c.toNat ∧ c.toNat < 91 then some ⟨c.toNat - 65, by omega⟩
  else if lower : 97 ≤ c.toNat ∧ c.toNat < 123 then some ⟨c.toNat - 71, by omega⟩
  else if decimal : 48 ≤ c.toNat ∧ c.toNat < 58 then some ⟨c.toNat + 4, by omega⟩
  else if c.toNat = 43 then some 62
  else if c.toNat = 47 then some 63
  else none

/-- What follows the characters of an incomplete group. -/
def pad : Char := '='

@[simp]
theorem value_digit (n : Fin 64) : value (digit n) = some n := by
  revert n
  decide

theorem digit_ne_pad (n : Fin 64) : digit n ≠ pad := by
  revert n
  decide

/-- A character that has a value is the one of that digit. -/
theorem digit_value {c : Char} {n : Fin 64} (valued : value c = some n) : digit n = c := by
  suffices code : symbol n = c.toNat by rw [digit, code, Char.ofNat_toNat]
  unfold value at valued
  split at valued
  case isTrue =>
    cases valued
    change symbol (c.toNat - 65) = c.toNat
    rw [symbol, if_pos (by omega)]
    omega
  case isFalse =>
    split at valued
    case isTrue =>
      cases valued
      change symbol (c.toNat - 71) = c.toNat
      rw [symbol, if_neg (by omega), if_pos (by omega)]
      omega
    case isFalse =>
      split at valued
      case isTrue =>
        cases valued
        change symbol (c.toNat + 4) = c.toNat
        rw [symbol, if_neg (by omega), if_neg (by omega), if_pos (by omega)]
        omega
      case isFalse =>
        split at valued
        case isTrue plus =>
          cases valued
          exact plus.symm
        case isFalse =>
          split at valued
          case isTrue slash =>
            cases valued
            exact slash.symm
          case isFalse => cases valued

/-! ## Groups -/

/-- The first digit of a group, from its first byte. -/
def first (a : UInt8) : Fin 64 := ⟨a.toNat / 4, by have := a.toNat_lt; omega⟩

/-- The second digit, from the first two bytes. -/
def second (a b : UInt8) : Fin 64 :=
  ⟨a.toNat % 4 * 16 + b.toNat / 16, by have := b.toNat_lt; omega⟩

/-- The third digit, from the last two bytes. -/
def third (b c : UInt8) : Fin 64 :=
  ⟨b.toNat % 16 * 4 + c.toNat / 64, by have := c.toNat_lt; omega⟩

/-- The last digit, from the last byte. -/
def fourth (c : UInt8) : Fin 64 := ⟨c.toNat % 64, by omega⟩

/-- The first byte of a group, from its first two digits. -/
def byte1 (p q : Fin 64) : UInt8 := UInt8.ofNat (p * 4 + q / 16)

/-- The second byte, from the digits in the middle. -/
def byte2 (q r : Fin 64) : UInt8 := UInt8.ofNat (q % 16 * 16 + r / 4)

/-- The last byte, from the last two digits. -/
def byte3 (r s : Fin 64) : UInt8 := UInt8.ofNat (r % 4 * 64 + s)

section Bytes

variable (a b c : UInt8)

@[simp]
theorem byte1_digits : byte1 (first a) (second a b) = a := by
  apply UInt8.toNat_inj.mp
  have bounded := a.toNat_lt
  have also := b.toNat_lt
  rw [byte1, UInt8.toNat_ofNat']
  simp only [first, second]
  omega

@[simp]
theorem byte2_digits : byte2 (second a b) (third b c) = b := by
  apply UInt8.toNat_inj.mp
  have bounded := b.toNat_lt
  have also := c.toNat_lt
  rw [byte2, UInt8.toNat_ofNat']
  simp only [second, third]
  omega

@[simp]
theorem byte3_digits : byte3 (third b c) (fourth c) = c := by
  apply UInt8.toNat_inj.mp
  have bounded := c.toNat_lt
  rw [byte3, UInt8.toNat_ofNat']
  simp only [third, fourth]
  omega

end Bytes

section Digits

variable (p q r s : Fin 64)

theorem byte1_toNat : (byte1 p q).toNat = p * 4 + q / 16 := by
  rw [byte1, UInt8.toNat_ofNat']
  omega

theorem byte2_toNat : (byte2 q r).toNat = q % 16 * 16 + r / 4 := by
  rw [byte2, UInt8.toNat_ofNat']
  omega

theorem byte3_toNat : (byte3 r s).toNat = r % 4 * 64 + s := by
  rw [byte3, UInt8.toNat_ofNat']
  omega

@[simp]
theorem first_bytes : first (byte1 p q) = p := by
  apply Fin.ext
  simp only [first, byte1_toNat]
  omega

@[simp]
theorem second_bytes : second (byte1 p q) (byte2 q r) = q := by
  apply Fin.ext
  simp only [second, byte1_toNat, byte2_toNat]
  omega

@[simp]
theorem third_bytes : third (byte2 q r) (byte3 r s) = r := by
  apply Fin.ext
  simp only [third, byte2_toNat, byte3_toNat]
  omega

@[simp]
theorem fourth_bytes : fourth (byte3 r s) = s := by
  apply Fin.ext
  simp only [fourth, byte3_toNat]
  omega

/-- The last of two digits, if the bits that it does not use are zero. -/
theorem second_last (unused : q.val % 16 = 0) : second (byte1 p q) 0 = q := by
  apply Fin.ext
  simp only [second, byte1_toNat, UInt8.toNat_zero]
  omega

/-- The last of three digits, if the bits that it does not use are zero. -/
theorem third_last (unused : r.val % 4 = 0) : third (byte2 q r) 0 = r := by
  apply Fin.ext
  simp only [third, byte2_toNat, UInt8.toNat_zero]
  omega

end Digits

/-! ## Texts -/

/-- The text of some bytes. -/
def encode : List UInt8 → List Char
  | a :: b :: c :: rest =>
    digit (first a) :: digit (second a b) :: digit (third b c) :: digit (fourth c) :: encode rest
  | [a, b] => [digit (first a), digit (second a b), digit (third b 0), pad]
  | [a] => [digit (first a), digit (second a 0), pad, pad]
  | [] => []

/-- The byte of a last group with two digits. -/
def lastByte (p q : Char) : Option (List UInt8) := do
  let p ← value p
  let q ← value q
  if q.val % 16 = 0 then some [byte1 p q] else none

/-- The bytes of a last group with three digits. -/
def lastBytes (p q r : Char) : Option (List UInt8) := do
  let p ← value p
  let q ← value q
  let r ← value r
  if r.val % 4 = 0 then some [byte1 p q, byte2 q r] else none

/-- The bytes of a text. -/
def decode : List Char → Option (List UInt8)
  | p :: q :: r :: s :: rest =>
    if s = pad then
      if rest ≠ [] then none
      else if r = pad then lastByte p q
      else lastBytes p q r
    else do
      let p ← value p
      let q ← value q
      let r ← value r
      let s ← value s
      let bytes ← decode rest
      some (byte1 p q :: byte2 q r :: byte3 r s :: bytes)
  | [] => some []
  | _ => none

/-- Four characters for every three bytes, and for what is left. -/
theorem length_encode (bytes : List UInt8) :
    (encode bytes).length = (bytes.length + 2) / 3 * 4 := by
  induction bytes using encode.induct with
  | case1 a b c rest ih =>
    simp only [encode, List.length_cons, ih]
    omega
  | case2 | case3 | case4 => simp [encode]

/-- The text of some bytes is decoded to them. -/
theorem decode_encode (bytes : List UInt8) : decode (encode bytes) = some bytes := by
  induction bytes using encode.induct with
  | case1 a b c rest ih =>
    rw [encode, decode, if_neg (digit_ne_pad _)]
    simp [ih]
  | case2 a b =>
    have unused : (third b 0).val % 4 = 0 := by
      simp only [third, UInt8.toNat_zero]
      omega
    rw [encode, decode, if_pos rfl, if_neg (not_not.mpr rfl), if_neg (digit_ne_pad _)]
    simp [lastBytes, unused]
  | case3 a =>
    have unused : (second a 0).val % 16 = 0 := by
      simp only [second, UInt8.toNat_zero]
      omega
    rw [encode, decode, if_pos rfl, if_neg (not_not.mpr rfl), if_pos rfl]
    simp [lastByte, unused]
  | case4 => rfl

/-- The last group of a text that ends with one byte. -/
theorem encode_lastByte {p q : Char} {bytes : List UInt8} (decoded : lastByte p q = some bytes) :
    encode bytes = [p, q, pad, pad] := by
  simp only [lastByte, Option.bind_eq_bind, Option.bind_eq_some_iff,
    Option.ite_none_right_eq_some] at decoded
  obtain ⟨m, hp, n, hq, unused, same⟩ := decoded
  cases same
  rw [encode, first_bytes, second_last m n unused, digit_value hp, digit_value hq]

/-- The last group of a text that ends with two bytes. -/
theorem encode_lastBytes {p q r : Char} {bytes : List UInt8}
    (decoded : lastBytes p q r = some bytes) : encode bytes = [p, q, r, pad] := by
  simp only [lastBytes, Option.bind_eq_bind, Option.bind_eq_some_iff,
    Option.ite_none_right_eq_some] at decoded
  obtain ⟨m, hp, n, hq, k, hr, unused, same⟩ := decoded
  cases same
  rw [encode, first_bytes, second_bytes, third_last n k unused, digit_value hp, digit_value hq,
    digit_value hr]

/-- A text that is decoded is the text of what it is decoded to. -/
theorem encode_of_decode {text : List Char} {bytes : List UInt8}
    (decoded : decode text = some bytes) : encode bytes = text := by
  induction text using decode.induct generalizing bytes with
  | case1 p q r rest more =>
    rw [decode, if_pos rfl, if_pos more] at decoded
    cases decoded
  | case2 p q rest done =>
    rw [decode, if_pos rfl, if_neg done, if_pos rfl] at decoded
    rw [encode_lastByte decoded, not_not.mp done]
  | case3 p q r rest done digits =>
    rw [decode, if_pos rfl, if_neg done, if_neg digits] at decoded
    rw [encode_lastBytes decoded, not_not.mp done]
  | case4 p q r s rest digits ih =>
    rw [decode, if_neg digits] at decoded
    simp only [Option.bind_eq_bind, Option.bind_eq_some_iff] at decoded
    obtain ⟨k, hp, l, hq, m, hr, n, hs, later, left, same⟩ := decoded
    cases same
    rw [encode, first_bytes, second_bytes, third_bytes, fourth_bytes, digit_value hp,
      digit_value hq, digit_value hr, digit_value hs, ih left]
  | case5 =>
    cases decoded
    rfl
  | case6 text short empty =>
    rcases text with _ | ⟨p, _ | ⟨q, _ | ⟨r, _ | ⟨s, rest⟩⟩⟩⟩
    · exact (empty rfl).elim
    · cases decoded
    · cases decoded
    · cases decoded
    · exact (short p q r s rest rfl).elim

/-- Different bytes have different texts. -/
theorem encode_injective {one other : List UInt8} (same : encode one = encode other) :
    one = other := by
  have decoded := decode_encode one
  rw [same, decode_encode] at decoded
  exact (Option.some.inj decoded).symm

/-- A text consists of digits and padding. -/
theorem mem_encode {bytes : List UInt8} {c : Char} (inside : c ∈ encode bytes) :
    c = pad ∨ ∃ n, c = digit n := by
  induction bytes using encode.induct with
  | case1 a b d rest ih =>
    simp only [encode, List.mem_cons] at inside
    rcases inside with rfl | rfl | rfl | rfl | inside
    · exact Or.inr ⟨_, rfl⟩
    · exact Or.inr ⟨_, rfl⟩
    · exact Or.inr ⟨_, rfl⟩
    · exact Or.inr ⟨_, rfl⟩
    · exact ih inside
  | case2 a b =>
    simp only [encode, List.mem_cons, List.not_mem_nil, or_false] at inside
    rcases inside with rfl | rfl | rfl | rfl
    · exact Or.inr ⟨_, rfl⟩
    · exact Or.inr ⟨_, rfl⟩
    · exact Or.inr ⟨_, rfl⟩
    · exact Or.inl rfl
  | case3 a =>
    simp only [encode, List.mem_cons, List.not_mem_nil, or_false] at inside
    rcases inside with rfl | rfl | rfl | rfl
    · exact Or.inr ⟨_, rfl⟩
    · exact Or.inr ⟨_, rfl⟩
    · exact Or.inl rfl
    · exact Or.inl rfl
  | case4 => cases inside

end Azul.Foundation.Base64
