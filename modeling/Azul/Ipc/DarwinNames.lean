import Azul.Foundation.Base64
import Azul.Ipc.SharedMemory
import Mathlib.Data.List.TakeWhile

/-!
# Names of shared memory on `darwin`

A name may have 31 bytes there, so the name of an object for the operating system is a slash and the
Base64 text of the SHA-1 hash of the full name. The hash and `sasl_encode64` are code of other
libraries: the hash is any function to twenty bytes, and `sasl_encode64` writes Base64 if the text
and its terminator fit in the buffer.
-/

namespace Azul.Ipc.Darwin

open Azul.Foundation

/-- `CC_SHA1`, of bytes. -/
abbrev Sha1 := List UInt8 → Vector UInt8 20

/-- `sasl_encode64`, of bytes and their number, into a buffer of a size; it fails with a return code
of its own. -/
abbrev SaslEncode64 := List UInt8 → UInt32 → UInt32 → Except Int (List Char)

/-- `sasl_encode64` is documented to write Base64 if there is room for it. -/
structure SaslEncode64.Documented (saslEncode64 : SaslEncode64) : Prop where
  encodes : ∀ data inlen outmax, inlen.toNat = data.length →
    (data.length + 2) / 3 * 4 < outmax.toNat → saslEncode64 data inlen outmax =
      .ok (Base64.encode data)

variable (sha1 : Sha1) (saslEncode64 : SaslEncode64) (errno : Int)

/-- `sha1_hash`, of the bytes of a string. -/
def sha1Hash (data : String) : List UInt8 := (sha1 data.toUTF8.toList).toList

/-- `base64_encode`. It reports `errno`, whatever that holds after the call, and not what
`sasl_encode64` has returned. -/
def base64Encode (data : List UInt8) : Except String (List Char) :=
  let size : UInt64 := .ofNat data.length
  let room := size * 8 / 6 + 10
  match saslEncode64 data size.toUInt32 room.toUInt32 with
  | .ok text => .ok text
  | .error _ => .error ("Error while calling sasl_encode64: " ++ toString errno)

/-- The name that `CreateSharedMemory` uses. -/
def encodedName (fullName : String) : Except String String := do
  let encodedName ← base64Encode saslEncode64 errno (sha1Hash sha1 fullName)
  return "/" ++ String.ofList encodedName

variable {sha1 saslEncode64 errno}

theorem sha1Hash_length (name : String) : (sha1Hash sha1 name).length = 20 :=
  Vector.length_toList

/-- The buffer of `base64_encode` has room for the text, as long as its size fits in 32 bits. -/
theorem base64Encode_eq (documented : saslEncode64.Documented) {data : List UInt8}
    (fits : data.length * 8 / 6 + 10 < 4294967296) :
    base64Encode saslEncode64 errno data = .ok (Base64.encode data) := by
  have size : (UInt64.ofNat data.length).toNat = data.length := by
    rw [UInt64.toNat_ofNat']
    omega
  have room : (UInt64.ofNat data.length * 8 / 6 + 10).toNat = data.length * 8 / 6 + 10 := by
    rw [UInt64.toNat_add, UInt64.toNat_div, UInt64.toNat_mul, size]
    change (data.length * 8 % 18446744073709551616 / 6 + 10) % 18446744073709551616 =
      data.length * 8 / 6 + 10
    have small : data.length * 8 < 18446744073709551616 := by
      omega
    rw [Nat.mod_eq_of_lt small]
    exact Nat.mod_eq_of_lt (by omega)
  have inlen : (UInt64.ofNat data.length).toUInt32.toNat = data.length := by
    rw [UInt64.toNat_toUInt32, size]
    omega
  have outmax : (UInt64.ofNat data.length * 8 / 6 + 10).toUInt32.toNat =
      data.length * 8 / 6 + 10 := by
    rw [UInt64.toNat_toUInt32, room]
    omega
  have enough : (data.length + 2) / 3 * 4 < data.length * 8 / 6 + 10 := by
    omega
  rw [base64Encode, documented.encodes data _ _ inlen (outmax ▸ enough)]

/-- `c_str` does not cut off the text of some bytes. -/
theorem cStr_encode (bytes : List UInt8) :
    SharedMemory.cStr ("/" ++ String.ofList (Base64.encode bytes)) =
      "/" ++ String.ofList (Base64.encode bytes) := by
  have clean : ∀ n, ((Base64.digit n).toNat != 0) = true := by
    decide
  have kept : ∀ c ∈ '/' :: Base64.encode bytes, (c.toNat != 0) = true := by
    intro c inside
    rcases List.mem_cons.mp inside with rfl | later
    · rfl
    · rcases Base64.mem_encode later with rfl | ⟨n, rfl⟩
      · rfl
      · exact clean n
  have listed : ("/" ++ String.ofList (Base64.encode bytes)).toList =
      '/' :: Base64.encode bytes := by
    rw [String.toList_append]
    simp only [String.toList_ofList]
    rfl
  rw [SharedMemory.cStr, listed, List.takeWhile_eq_self_iff.mpr kept, ← listed,
    String.ofList_toList]

/-- A full name always has a name for the operating system: a slash and 28 characters, so that it
fits and is not cut off by `c_str`. It is the only text from which the hash can be read back, and
full names share a name exactly when they share a hash. -/
theorem encodedName_faithful (documented : saslEncode64.Documented) (fullName : String) :
    ∃ text, encodedName sha1 saslEncode64 errno fullName = .ok ("/" ++ String.ofList text) ∧
      text.length = 28 ∧
      SharedMemory.cStr ("/" ++ String.ofList text) = "/" ++ String.ofList text ∧
      (∀ other, Base64.decode other = some (sha1Hash sha1 fullName) ↔ other = text) ∧
      ∀ other, encodedName sha1 saslEncode64 errno other = .ok ("/" ++ String.ofList text) ↔
        sha1Hash sha1 other = sha1Hash sha1 fullName := by
  have named (name : String) : encodedName sha1 saslEncode64 errno name =
      .ok ("/" ++ String.ofList (Base64.encode (sha1Hash sha1 name))) := by
    have fits : (sha1Hash sha1 name).length * 8 / 6 + 10 < 4294967296 := by
      rw [sha1Hash_length]
      decide
    rw [encodedName, base64Encode_eq documented fits]
    rfl
  refine ⟨Base64.encode (sha1Hash sha1 fullName), named fullName, ?_, ?_, ?_, ?_⟩
  · rw [Base64.length_encode, sha1Hash_length]
  · exact cStr_encode _
  · intro text
    constructor
    · exact fun decoded => (Base64.encode_of_decode decoded).symm
    · rintro rfl
      exact Base64.decode_encode _
  · intro other
    rw [named other]
    constructor
    · intro same
      have texts := congrArg String.toList (Except.ok.inj same)
      simp only [String.toList_append, String.toList_ofList] at texts
      exact Base64.encode_injective (List.append_cancel_left texts)
    · intro same
      rw [same]

/-- A hash that is right for one name. -/
def memorySha1 (_ : List UInt8) : Vector UInt8 20 :=
  #v[129, 197, 212, 155, 233, 80, 80, 137, 216, 210, 72, 234, 150, 246, 208, 119, 253, 10, 185, 189]

/-- `sasl_encode64`, which looks at the size of the buffer first and returns `SASL_BUFOVER`. -/
def saslEncode (data : List UInt8) (inlen outmax : UInt32) : Except Int (List Char) :=
  if outmax.toNat ≤ (inlen.toNat + 2) / 3 * 4 then .error (-3) else .ok (Base64.encode data)

/-- The name for `memory`. -/
theorem encodedName_faithful_memory :
    encodedName memorySha1 saslEncode 0 "memory" = .ok "/gcXUm+lQUInY0kjqlvbQd/0Kub0=" ∧
      ∃ text, encodedName memorySha1 saslEncode 0 "memory" = .ok ("/" ++ String.ofList text) ∧
        text.length = 28 := by
  have documented : SaslEncode64.Documented saslEncode := by
    constructor
    intro data inlen outmax whole room
    rw [saslEncode, if_neg (by omega)]
  obtain ⟨text, named, length, _⟩ := encodedName_faithful documented "memory"
  exact ⟨by decide +kernel, text, named, length⟩

end Azul.Ipc.Darwin
