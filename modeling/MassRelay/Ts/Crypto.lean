import MassRelay.Lib.Base64
import MassRelay.Lib.Utf8

/-!
# MassRelay.Ts.Crypto

The encryption of payloads in `ts/src/crypto.ts`: `base64(IV || ciphertext || authTag)`.

A plaintext is a `String`, as `TextEncoder` has no other strings. The cipher is that of the browser,
and all that is used of it is that it decrypts what it has encrypted (`AesGcm.Lawful`). What is
decrypted is the plaintext, but for one character: `TextDecoder` takes a byte order mark at the
start for a mark, and leaves it out.
-/

namespace MassRelay.Ts

/-- `crypto.subtle.encrypt` and `crypto.subtle.decrypt` for AES-GCM, with a key, an IV and the
data. Decrypting may be refused. -/
structure AesGcm (CryptoKey : Type) where
  encrypt : CryptoKey → List UInt8 → List UInt8 → List UInt8
  decrypt : CryptoKey → List UInt8 → List UInt8 → Option (List UInt8)

structure AesGcm.Lawful {CryptoKey : Type} (gcm : AesGcm CryptoKey) : Prop where
  decrypt_encrypt : ∀ key iv data, gcm.decrypt key iv (gcm.encrypt key iv data) = some data

/-- AES-GCM standard. -/
def ivLength : Nat := 12

/-- `new TextEncoder().encode(s)`. -/
def textEncode (s : String) : List UInt8 := Utf8.encode s.toList

/-- A byte order mark. -/
def bom : Char := '\uFEFF'

/-- `new TextDecoder().decode(bytes)`. -/
def textDecode (bytes : List UInt8) : String :=
  match Utf8.decode bytes with
  | c :: cs => if c = bom then String.ofList cs else String.ofList (c :: cs)
  | [] => ""

/-- None if `btoa` throws. -/
def uint8ToBase64 (bytes : List UInt8) : Option (List Nat) := Base64.btoa (bytes.map UInt8.toNat)

/-- None if `atob` throws. -/
def base64ToUint8 (base64 : List Nat) : Option (List UInt8) :=
  (Base64.atob base64).map (·.map UInt8.ofNat)

variable {CryptoKey : Type}

def encryptPayload (gcm : AesGcm CryptoKey) (iv : Vector UInt8 ivLength) (key : CryptoKey)
    (plaintext : String) : Option (List Nat) :=
  let encoded := textEncode plaintext
  let ciphertext := gcm.encrypt key iv.toList encoded
  uint8ToBase64 (iv.toList ++ ciphertext)

def decryptPayload (gcm : AesGcm CryptoKey) (key : CryptoKey) (ciphertext : List Nat) :
    Option String :=
  (base64ToUint8 ciphertext).bind fun combined =>
    let iv := combined.take ivLength
    let data := combined.drop ivLength
    (gcm.decrypt key iv data).map textDecode

theorem map_ofNat_toNat (bytes : List UInt8) : (bytes.map UInt8.toNat).map UInt8.ofNat = bytes := by
  rw [List.map_map]
  exact (List.map_congr_left fun b _ => UInt8.ofNat_toNat).trans (List.map_id bytes)

/-- Bytes survive base64. -/
theorem base64ToUint8_uint8ToBase64 (bytes : List UInt8) :
    (uint8ToBase64 bytes).bind base64ToUint8 = some bytes := by
  have hbytes : ∀ u ∈ bytes.map UInt8.toNat, u ≤ 0xFF := by
    intro u hu
    obtain ⟨b, -, rfl⟩ := List.mem_map.mp hu
    exact Nat.le_of_lt_succ b.toNat_lt
  rw [uint8ToBase64, Base64.btoa_eq_some hbytes, Option.bind_some, base64ToUint8,
    Base64.atob_encode,
    Option.map_some, map_ofNat_toNat, map_ofNat_toNat]

/-- What is decrypted is what the plaintext is decoded to. -/
theorem decryptPayload_encryptPayload {gcm : AesGcm CryptoKey} (hgcm : gcm.Lawful)
    (iv : Vector UInt8 ivLength) (key : CryptoKey) (p : String) :
    (encryptPayload gcm iv key p).bind (decryptPayload gcm key) =
      some (textDecode (textEncode p)) := by
  have hlength : iv.toList.length = ivLength := iv.length_toList
  have hassoc : (encryptPayload gcm iv key p).bind (decryptPayload gcm key) =
      ((uint8ToBase64 (iv.toList ++ gcm.encrypt key iv.toList (textEncode p))).bind
        base64ToUint8).bind fun combined =>
          (gcm.decrypt key (combined.take ivLength) (combined.drop ivLength)).map textDecode :=
    (Option.bind_assoc _ _ _).symm
  rw [hassoc, base64ToUint8_uint8ToBase64, Option.bind_some, List.take_left' hlength,
    List.drop_left' hlength, hgcm.decrypt_encrypt, Option.map_some]

/-- A string is decoded to itself, without its byte order mark if it starts with one. -/
theorem textDecode_textEncode (p : String) :
    textDecode (textEncode p) = p ↔ p.toList.head? ≠ some bom := by
  have hchars : Utf8.decode (textEncode p) = p.toList := Utf8.decode_encode p.toList
  unfold textDecode
  rw [hchars]
  cases hlist : p.toList with
  | nil => exact iff_of_true (String.toList_injective (by rw [hlist]; rfl)) (by simp)
  | cons c cs =>
    have hp : String.ofList (c :: cs) = p := by rw [← hlist, String.ofList_toList]
    dsimp only
    split
    · rename_i hbom
      refine iff_of_false (fun heq => ?_) (by simp [hbom])
      have hlength := congrArg (·.toList.length) (heq.trans hp.symm)
      simp at hlength
    · rename_i hbom
      exact iff_of_true hp (by simpa using hbom)

/-- What was encrypted is decrypted, unless it starts with a byte order mark. -/
theorem decrypt_encrypt_iff {gcm : AesGcm CryptoKey} (hgcm : gcm.Lawful)
    (iv : Vector UInt8 ivLength) (key : CryptoKey) (p : String) :
    (encryptPayload gcm iv key p).bind (decryptPayload gcm key) = some p ↔
      p.toList.head? ≠ some bom := by
  rw [decryptPayload_encryptPayload hgcm, Option.some.injEq]
  exact textDecode_textEncode p

/-- The first block of the key stream of AES-256-GCM, where the key and the IV are zero. -/
def keyStream : List UInt8 :=
  [0xCE, 0xA7, 0x40, 0x3D, 0x4D, 0x60, 0x6B, 0x6E, 0x07, 0x4E, 0xC5, 0xD3, 0xBA, 0xF3, 0x9D, 0x18]

/-- The tag for no data. -/
def emptyTag : List UInt8 :=
  [0x53, 0x0F, 0x8A, 0xFB, 0xC7, 0x45, 0x36, 0xB9, 0xA9, 0x63, 0xB4, 0xF1, 0xC4, 0xCB, 0x73, 0x8B]

/-- The tag for `text`. -/
def textTag : List UInt8 :=
  [0xBB, 0x7F, 0x57, 0xD3, 0xC7, 0x48, 0x25, 0x87, 0xCB, 0xF6, 0x41, 0x47, 0x40, 0x00, 0xEA, 0xC3]

def underKeyStream (data : List UInt8) : List UInt8 :=
  data.mapIdx fun i b => b ^^^ keyStream.getD (i % 16) 0

def zeroTag (data : List UInt8) : List UInt8 :=
  if data = textEncode "text" then textTag else emptyTag

/-- AES-256-GCM with the key zero and the IV zero, as far as it encrypts no data and `text`. What it
makes of other data has the right length, and can be decrypted. -/
def zeroGcm : AesGcm Unit where
  encrypt _ _ data := underKeyStream data ++ zeroTag data
  decrypt _ _ bytes :=
    let data := underKeyStream (bytes.take (bytes.length - 16))
    if bytes.drop (bytes.length - 16) = zeroTag data then some data else none

theorem underKeyStream_twice (data : List UInt8) : underKeyStream (underKeyStream data) = data := by
  have hbyte : ∀ (i : Nat) (b : UInt8),
      b ^^^ keyStream.getD (i % 16) 0 ^^^ keyStream.getD (i % 16) 0 = b := fun i b => by
    rw [UInt8.xor_assoc, UInt8.xor_self, UInt8.xor_zero]
  unfold underKeyStream
  rw [List.mapIdx_mapIdx]
  exact List.ext_getElem (by simp) fun i h h' => (List.getElem_mapIdx ..).trans (hbyte i data[i])

theorem lawful_zeroGcm : zeroGcm.Lawful := by
  refine ⟨fun _ _ data => ?_⟩
  have htag : (zeroTag data).length = 16 := by
    unfold zeroTag
    split <;> rfl
  have hlength :
      (underKeyStream data ++ zeroTag data).length - 16 = (underKeyStream data).length := by
    rw [List.length_append, htag, Nat.add_sub_cancel]
  simp only [zeroGcm, hlength, List.take_left, List.drop_left, underKeyStream_twice, if_true]

def zeroIv : Vector UInt8 ivLength := Vector.replicate ivLength 0

theorem decrypt_encrypt_text :
    encryptPayload zeroGcm zeroIv () "text" =
      some ("AAAAAAAAAAAAAAAAusI4Sbt/V9PHSCWHy/ZBR0AA6sM=".toList.map Char.toNat) ∧
    (encryptPayload zeroGcm zeroIv () "text").bind (decryptPayload zeroGcm ()) = some "text" ∧
    (encryptPayload zeroGcm zeroIv () "").bind (decryptPayload zeroGcm ()) = some "" :=
  ⟨by decide +kernel, (decrypt_encrypt_iff lawful_zeroGcm zeroIv () "text").mpr (by decide),
    (decrypt_encrypt_iff lawful_zeroGcm zeroIv () "").mpr (by decide)⟩

/-- Of a byte order mark nothing is left, whatever the cipher. -/
theorem decrypt_encrypt_bom : ¬ ∃ gcm : AesGcm Unit, gcm.Lawful ∧ ∀ iv key p,
    (encryptPayload gcm iv key p).bind (decryptPayload gcm key) = some p := by
  rintro ⟨gcm, hgcm, h⟩
  have hread := h zeroIv () "\uFEFF"
  rw [decryptPayload_encryptPayload hgcm] at hread
  exact absurd hread (by decide)

end MassRelay.Ts
