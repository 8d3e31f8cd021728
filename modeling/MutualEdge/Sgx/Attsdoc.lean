import MutualEdge.Lib.Checks
import MutualEdge.Sgx.Transmit

/-! `attsdoc.c`: `validate_attsdoc`, check by check.

    The libraries are a parameter: what the CBOR decoder makes of bytes, how certificates and keys are
    parsed, and what the digest calls answer, which may differ from one attempt to the next. Every
    check that fails ends the process with code 2 and the message printed last. Progress messages on
    stdout and the release of memory are left out.

    The function is cut where its comments number its parts: opening the document, the certificate and
    its key, the signature, the key of the enclave. -/

namespace MutualEdge.Sgx
open Bytes Checks

/-- A decoded `cbor_item_t`. A string sent in chunks has length `0` for the accessors used here and
    counts as an empty one. -/
inductive Item where
  | uint (value : ℕ)
  /-- The number `-1 - value`. -/
  | negint (value : ℕ)
  | bytestring (bytes : List UInt8)
  | string (bytes : List UInt8)
  | array (items : List Item)
  | map (pairs : List (Item × Item))
  | tag (value : ℕ) (item : Item)
  | null
  /-- Floats and the other simple values. -/
  | other

inductive Md where | sha256 | sha384 | sha512
  deriving DecidableEq

/-- Calls that fail for want of memory only. -/
inductive Resource where
  | mdCtx
  | sigStructureBuf
  | ecdsaSig
  | bignums
  | ecdsaSigSet0
  | derBuf

/-- What the libraries answer. -/
structure Libraries (Cert Key : Type) where
  /-- `cbor_load`; the error code is only printed. -/
  cborLoad : List UInt8 → Option Item
  d2iX509 : List UInt8 → Option Cert
  x509GetPubkey : Cert → Option Key
  /-- `EVP_PKEY_id(pubkey) == EVP_PKEY_EC` -/
  isEc : Key → Bool
  available : Resource → Bool
  /-- `EVP_DigestVerifyInit` in the given attempt returns 1. -/
  digestVerifyInit : ℕ → Md → Key → Bool
  /-- `EVP_DigestVerifyUpdate` in the given attempt returns 1. -/
  digestVerifyUpdate : ℕ → List UInt8 → Bool
  /-- `EVP_DigestVerifyFinal` in the given attempt, for the digest, key and data of its context. -/
  digestVerifyFinal : ℕ → Md → Key → List UInt8 → List UInt8 → ℤ
  /-- `i2d_ECDSA_SIG` of the big-endian numbers `r` and `s`. -/
  i2dEcdsaSig : List UInt8 → List UInt8 → Option (List UInt8)
  d2iPubkey : List UInt8 → Option Key

/-! ### CBOR -/

/-- The head of an encoded item: its major type and its length, in the shortest form. -/
def cborHead (major n : ℕ) : List UInt8 :=
  if n < 24 then [UInt8.ofNat (major * 32 + n)]
  else if n < 2 ^ 8 then UInt8.ofNat (major * 32 + 24) :: (leBytes 1 n).reverse
  else if n < 2 ^ 16 then UInt8.ofNat (major * 32 + 25) :: (leBytes 2 n).reverse
  else if n < 2 ^ 32 then UInt8.ofNat (major * 32 + 26) :: (leBytes 4 n).reverse
  else UInt8.ofNat (major * 32 + 27) :: (leBytes 8 n).reverse

def cborBytestring (bytes : List UInt8) : List UInt8 := cborHead 2 bytes.length ++ bytes

def cborString (bytes : List UInt8) : List UInt8 := cborHead 3 bytes.length ++ bytes

/-- The bytes of a string literal. -/
def ascii (s : String) : List UInt8 := s.toList.map fun c => UInt8.ofNat c.toNat

/-- What `strcmp` sees of a key: the bytes up to the first NUL. -/
def cString (bytes : List UInt8) : List UInt8 := bytes.takeWhile (· ≠ 0)

def bytesOf : Item → Option (List UInt8)
  | .bytestring bytes => some bytes
  | _ => none

def isBytesOrNull : Item → Bool
  | .bytestring _ => true
  | .null => true
  | _ => false

def pairsOf : Item → Option (List (Item × Item))
  | .map pairs => some pairs
  | _ => none

/-- The search loops: the first entry whose key is a string equal to one of the names and whose value
    is a byte string. -/
def firstBytes (names : List (List UInt8)) (pairs : List (Item × Item)) : Option (List UInt8) :=
  pairs.findSome? fun
    | (.string key, .bytestring value) => if cString key ∈ names then some value else none
    | _ => none

/-! ### The document -/

/-- What the first part of `validate_attsdoc` leaves in its variables. -/
structure Document where
  protectedBytes : List UInt8
  algId : Int32
  attestationDoc : List UInt8
  signature : List UInt8
  pairs : List (Item × Item)

/-- A tag of any value is taken off, an array of four is taken as it is. -/
def coseSign1Of : Item → Option Item
  | .tag _ item => some item
  | .array items => if items.length = 4 then some (.array items) else none
  | _ => none

/-- Protected header, payload and signature. -/
def fieldsOf : Item → Option (Item × Item × Item)
  | .array [protectedHeader, _, payload, signature] => some (protectedHeader, payload, signature)
  | _ => none

/-- The value of the first entry with key `1`, as an `int`; `-1` when there is no such number. -/
def algIdOf : Item → Int32
  | .map pairs =>
    match pairs.find? fun p => match p.1 with | .uint n => n = 1 | _ => false with
    | some (_, .negint n) => Int32.ofInt (-1 - n)
    | some (_, .uint n) => Int32.ofInt n
    | _ => -1
  | _ => -1

section Validate
variable {Cert Key : Type} (L : Libraries Cert Key)

/-- From the bytes to the map of the attestation document. -/
def openDocument (attsdoc : List UInt8) : Except Stop Document := do
  let item ← require (.exit 2 "failed to decode CBOR: %d") (L.cborLoad attsdoc)
  let coseSign1 ← require
    (.exit 2 "Cannot handle raw attestation document directly, please check format")
    (coseSign1Of item)
  let fields ← require (.exit 2 "Invalid COSE_Sign1 structure (expected array of 4 items)")
    (fieldsOf coseSign1)
  let protectedBytes ← require (.exit 2 "Protected header is not a bytestring") (bytesOf fields.1)
  check (.exit 2 "Payload is neither bytestring nor null") (isBytesOrNull fields.2.1)
  let signature ← require (.exit 2 "Signature is not a bytestring") (bytesOf fields.2.2)
  check (.exit 2 "Protected header is empty") (protectedBytes ≠ [])
  let phItem ← require (.exit 2 "failed to decode protected header CBOR: %d")
    (L.cborLoad protectedBytes)
  let attestationDoc ← require (.exit 2 "No payload found in COSE_Sign1") (bytesOf fields.2.1)
  let adItem ← require
    (.exit 2 "failed to decode attestation document CBOR: %d (position: %zu)")
    (L.cborLoad attestationDoc)
  let pairs ← require (.exit 2 "Attestation document is not a map (actual type: %d)") (pairsOf adItem)
  return ⟨protectedBytes, algIdOf phItem, attestationDoc, signature, pairs⟩

/-- The certificate entry, unless it is missing or empty. -/
def certificateData (d : Document) : Option (List UInt8) :=
  (firstBytes [ascii "certificate", ascii "cert"] d.pairs).filter (· ≠ [])

/-- The certificate in the document and its key. -/
def signer (d : Document) : Except Stop (Cert × Key) := do
  let certData ← require (.exit 2 "Certificate not found in attestation document") (certificateData d)
  let signerCert ← require (.exit 2 "failed to parse certificate: %s") (L.d2iX509 certData)
  let pubkey ← require (.exit 2 "failed to extract public key: %s") (L.x509GetPubkey signerCert)
  return (signerCert, pubkey)

/-- The `switch` over the algorithm. -/
def mdOf (algId : Int32) : Md :=
  if algId = -7 then .sha256
  else if algId = -35 then .sha384
  else if algId = -36 then .sha512
  else .sha384

/-- The serialized Sig_structure: an array of `"Signature1"`, the protected header, no external data
    and the payload. -/
def sigStructure (d : Document) : List UInt8 :=
  cborHead 4 4 ++ cborString (ascii "Signature1") ++ cborBytestring d.protectedBytes ++
    cborBytestring [] ++ cborBytestring d.attestationDoc

/-- A raw `r || s` signature of an EC key is converted to DER, any other is used as it is. -/
def derSignature (pubkey : Key) (sig : List UInt8) : Except Stop (List UInt8) :=
  if L.isEc pubkey ∧ (sig.length = 64 ∨ sig.length = 96 ∨ sig.length = 132) then do
    check (.exit 2 "Failed to create ECDSA_SIG") (L.available .ecdsaSig)
    check (.exit 2 "Failed to create BIGNUMs") (L.available .bignums)
    check (.exit 2 "Failed to set r and s in ECDSA_SIG") (L.available .ecdsaSigSet0)
    let der ← require (.exit 2 "Failed to calculate DER length")
      (L.i2dEcdsaSig (sig.take (sig.length / 2)) ((sig.drop (sig.length / 2)).take (sig.length / 2)))
    check (.exit 2 "Failed to allocate DER signature buffer") (L.available .derBuf)
    return der
  else return sig

/-- The attempts after the first, by their digest. -/
def attemptOf : Md → ℕ
  | .sha256 => 1
  | .sha384 => 2
  | .sha512 => 3

/-- `if (verify_result != 1)` try another digest, unless it is the one tried first. -/
def tryWith (md other : Md) (pubkey : Key) (data derSig : List UInt8) (verifyResult : ℤ) : ℤ :=
  if verifyResult ≠ 1 ∧ md ≠ other ∧ L.digestVerifyInit (attemptOf other) other pubkey ∧
      L.digestVerifyUpdate (attemptOf other) data then
    L.digestVerifyFinal (attemptOf other) other pubkey data derSig
  else verifyResult

/-- The direct verification over the payload prints one more message at most: the process exits whether
    it succeeds or not. -/
def directFailure (md : Md) (pubkey : Key) (attestationDoc derSig : List UInt8) : Stop :=
  if L.digestVerifyInit 4 md pubkey ∧ L.digestVerifyUpdate 4 attestationDoc ∧
      L.digestVerifyFinal 4 md pubkey attestationDoc derSig ≠ 1 then
    .exit 2 "All verification attempts failed: %s"
  else .exit 2 "Failed to validate signature: %d (error: %s)"

/-- The signature over the Sig_structure, with the digest of the header or one of the others. -/
def verifySignature (d : Document) (pubkey : Key) : Except Stop Unit := do
  check (.exit 2 "failed to create EVP_MD_CTX") (L.available .mdCtx)
  let md := mdOf d.algId
  check (.exit 2 "failed to EVP_DigestVerifyInit: %s") (L.digestVerifyInit 0 md pubkey)
  let data := sigStructure d
  check (.exit 2 "failed to allocate memory for sig_structure") (L.available .sigStructureBuf)
  check (.exit 2 "failed to serialize sig_structure")
    (data.length ≤ d.protectedBytes.length + d.attestationDoc.length + 100)
  check (.exit 2 "failed to EVP_DigestVerifyUpdate: %s") (L.digestVerifyUpdate 0 data)
  let derSig ← derSignature L pubkey d.signature
  let verifyResult := L.digestVerifyFinal 0 md pubkey data derSig
  let verifyResult := tryWith L md .sha256 pubkey data derSig verifyResult
  let verifyResult := tryWith L md .sha384 pubkey data derSig verifyResult
  let verifyResult := tryWith L md .sha512 pubkey data derSig verifyResult
  check (directFailure L md pubkey d.attestationDoc derSig) (verifyResult = 1)

/-- The key of the enclave; `none` is the NULL pointer. -/
def enclavePubkey (d : Document) : Option Key :=
  (firstBytes [ascii "public_key"] d.pairs).bind L.d2iPubkey

def validateAttsdoc (attsdoc : List UInt8) : Except Stop (Option Key) := do
  let d ← openDocument L attsdoc
  let s ← signer L d
  verifySignature L d s.2
  return enclavePubkey L d

end Validate

end MutualEdge.Sgx
