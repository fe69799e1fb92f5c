import HwPhoneLink.Testfile.Verify
import Mathlib.Data.List.Zip

/-!
# Crypto and JSON for dsoftbus

`softbus_crypto.c` as far as the authentication uses it, and the members that
it reads from JSON objects. OpenSSL and json-glib stand behind `SoftbusCrypto`
and `JsonGlib`. A C string is its bytes without the terminator.
-/

namespace HwPhoneLink.Softbus

open BigEndian
open Testfile (ascii)

def softbusSessionKeyLen : ℕ := 32
def softbusHkdfInfoControl : Bytes := ascii "softbus-control-key"
def softbusHkdfInfoData : Bytes := ascii "softbus-data-key"

/-- OpenSSL: HMAC-SHA256 of data under a key, and HKDF-SHA256 of input key material
with a salt and an info string. -/
structure SoftbusCrypto where
  hmacSha256 : Bytes → Bytes → Bytes
  hkdfSha256 : Bytes → Bytes → Bytes → Bytes
  hmac_length : ∀ key data, (hmacSha256 key data).length = 32

/-! ## Hex -/

def hexDigit (n : UInt8) : UInt8 := if n < 10 then 48 + n else 87 + n

def softbusToHex (data : Bytes) : Bytes :=
  data.flatMap fun (b : UInt8) => [hexDigit (b >>> 4), hexDigit (b &&& 0x0f)]

def hexNibble (c : UInt8) : Option UInt8 :=
  if 48 ≤ c ∧ c ≤ 57 then some (c - 48)
  else if 97 ≤ c ∧ c ≤ 102 then some (c - 97 + 10)
  else if 65 ≤ c ∧ c ≤ 70 then some (c - 65 + 10)
  else none

/-- The loop of `softbus_from_hex`. -/
def fromHexLoop : Bytes → Option Bytes
  | h :: l :: rest => do
      let hi ← hexNibble h
      let lo ← hexNibble l
      let out ← fromHexLoop rest
      some ((hi <<< 4 ||| lo) :: out)
  | _ => some []

/-- The decoded bytes. A buffer of `outCap` bytes keeps its old content behind them. -/
def softbusFromHex (hex : Bytes) (outCap : ℕ) : Option Bytes :=
  if hex.length % 2 ≠ 0 then none
  else if hex.length / 2 > outCap then none
  else fromHexLoop hex

theorem fromHexLoop_length : ∀ {hex bs : Bytes}, fromHexLoop hex = some bs →
    bs.length = hex.length / 2
  | [], bs, h => by
      cases h
      rfl
  | [_], bs, h => by
      cases h
      simp
  | h :: l :: rest, bs, hbs => by
      rw [fromHexLoop] at hbs
      obtain ⟨hi, -, hbs⟩ := Option.bind_eq_some_iff.mp hbs
      obtain ⟨lo, -, hbs⟩ := Option.bind_eq_some_iff.mp hbs
      obtain ⟨out, hout, hbs⟩ := Option.bind_eq_some_iff.mp hbs
      cases hbs
      have ih := fromHexLoop_length hout
      simp only [List.length_cons]
      omega

theorem softbusFromHex_length {hex bs : Bytes} {outCap : ℕ}
    (h : softbusFromHex hex outCap = some bs) : bs.length ≤ outCap := by
  unfold softbusFromHex at h
  split at h
  · cases h
  split at h
  · cases h
  · rename_i hcap
    have hlen := fromHexLoop_length h
    omega

/-! ## Session keys -/

/-- The two ids in `g_strcmp0` order, concatenated. -/
def softbusSalt (deviceIdA deviceIdB : Bytes) : Bytes :=
  if deviceIdB < deviceIdA then deviceIdB ++ deviceIdA else deviceIdA ++ deviceIdB

/-- The control key and the data key of a pair of devices. -/
def softbusHkdfSessionKeys (crypto : SoftbusCrypto) (deviceIdA deviceIdB ikm : Bytes) :
    Bytes × Bytes :=
  let salt := softbusSalt deviceIdA deviceIdB
  (crypto.hkdfSha256 ikm salt softbusHkdfInfoControl, crypto.hkdfSha256 ikm salt softbusHkdfInfoData)

/-! ## JSON -/

/-- A node of a parsed document. A double comes with the integer that
`json_node_get_int` makes of it; the elements of an array are not read. -/
inductive JsonNode : Type where
  | null
  | boolean (b : Bool)
  | integer (n : Int64)
  | double (asInt : Int64)
  | string (s : Bytes)
  | array
  | object (members : List (String × JsonNode))

abbrev JsonObject : Type := List (String × JsonNode)

/-- json-glib: the root of a text, or the parser's error, and the compact text of an object. -/
structure JsonGlib where
  parse : Bytes → Except String JsonNode
  generate : JsonObject → Bytes

/-- 0 where there is no number. -/
def jsonObjectGetIntMember (o : JsonObject) (name : String) : Int64 :=
  match o.lookup name with
  | some (.integer n) => n
  | some (.double n) => n
  | some (.boolean b) => if b then 1 else 0
  | _ => 0

/-- `none`, for NULL, where there is no string. -/
def jsonObjectGetStringMember (o : JsonObject) (name : String) : Option Bytes :=
  match o.lookup name with
  | some (.string s) => some s
  | _ => none

def jsonObjectHasMember (o : JsonObject) (name : String) : Bool := (o.lookup name).isSome

end HwPhoneLink.Softbus
