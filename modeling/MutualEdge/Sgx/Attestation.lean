import MutualEdge.Lib.Choice
import MutualEdge.Sgx.Attsdoc

/-! What a document has passed when `validate_attsdoc` returns, and what it has not.

    Each part of the function is read off as a description of the documents it lets through:
    `WellFormed`, `CertifiedBy`, `Verified`. `validateAttsdoc_ok` puts them together. Nothing in it
    speaks of the certificate's issuer, and the key may be missing: `authentic_iff` says for which
    documents the result is what the device takes it for. -/

namespace MutualEdge.Sgx
open Bytes Checks Choice

variable {Cert Key : Type} {L : Libraries Cert Key}

/-! ### The documents that are opened -/

/-- The document is a COSE_Sign1 array, tagged or not, over a map. -/
structure WellFormed (L : Libraries Cert Key) (attsdoc : List UInt8) (d : Document) : Prop where
  coseSign1 : ∃ unprotected item, L.cborLoad attsdoc = some item ∧
    (item = .array [.bytestring d.protectedBytes, unprotected, .bytestring d.attestationDoc,
        .bytestring d.signature] ∨
      ∃ value, item = .tag value (.array [.bytestring d.protectedBytes, unprotected,
        .bytestring d.attestationDoc, .bytestring d.signature]))
  protectedHeader : d.protectedBytes ≠ []
  algorithm : ∃ phItem, L.cborLoad d.protectedBytes = some phItem ∧ d.algId = algIdOf phItem
  payload : L.cborLoad d.attestationDoc = some (.map d.pairs)

theorem bytesOf_some {item : Item} {bytes : List UInt8} :
    bytesOf item = some bytes ↔ item = .bytestring bytes := by
  cases item <;> simp [bytesOf]

theorem pairsOf_some {item : Item} {pairs : List (Item × Item)} :
    pairsOf item = some pairs ↔ item = .map pairs := by
  cases item <;> simp [pairsOf]

theorem fieldsOf_some {item protectedHeader payload signature : Item} :
    fieldsOf item = some (protectedHeader, payload, signature) ↔
      ∃ unprotected, item = .array [protectedHeader, unprotected, payload, signature] := by
  constructor
  · intro h
    unfold fieldsOf at h
    split at h
    · rename_i unprotected _ _
      simp only [Option.some.injEq, Prod.mk.injEq] at h
      obtain ⟨rfl, rfl, rfl⟩ := h
      exact ⟨_, rfl⟩
    · simp at h
  · rintro ⟨_, rfl⟩
    rfl

/-- Of the two forms of a document only the inner array matters. -/
theorem coseSign1Of_array {item : Item} {items : List Item} (h : items.length = 4) :
    coseSign1Of item = some (.array items) ↔
      item = .array items ∨ ∃ value, item = .tag value (.array items) := by
  cases item with
  | tag value inner => simp [coseSign1Of]
  | array items' =>
    simp only [coseSign1Of, reduceCtorEq, exists_false, or_false, Item.array.injEq]
    constructor
    · intro hs
      split at hs
      · simpa using hs
      · simp at hs
    · rintro rfl
      rw [if_pos h]
  | _ => simp [coseSign1Of]

theorem openDocument_ok {attsdoc : List UInt8} {d : Document} :
    openDocument L attsdoc = .ok d ↔ WellFormed L attsdoc d := by
  simp only [openDocument, bind_ok, require_ok, check_ok, exists_const, pure_ok, bytesOf_some,
    pairsOf_some, Prod.exists]
  constructor
  · rintro ⟨item, hitem, cose, hcose, _, _, _, hfields, protectedBytes, rfl, _, signature, rfl, hne,
      phItem, hph, attestationDoc, rfl, adItem, had, pairs, rfl, rfl⟩
    obtain ⟨unprotected, rfl⟩ := fieldsOf_some.mp hfields
    exact ⟨⟨unprotected, item, hitem, (coseSign1Of_array rfl).mp hcose⟩, hne, ⟨phItem, hph, rfl⟩, had⟩
  · rintro ⟨⟨unprotected, item, hitem, hcose⟩, hne, ⟨phItem, hph, halg⟩, had⟩
    refine ⟨item, hitem, _, (coseSign1Of_array rfl).mpr hcose, _, _, _,
      fieldsOf_some.mpr ⟨unprotected, rfl⟩, _, rfl, rfl, _, rfl, hne, phItem, hph, _, rfl, _, had,
      _, rfl, ?_⟩
    rw [← halg]

/-! ### The certificate -/

/-- The certificate is the one in the payload, and the key is the one in the certificate. -/
structure CertifiedBy (L : Libraries Cert Key) (d : Document) (cert : Cert) (pubkey : Key) :
    Prop where
  certificate : ∃ bytes, firstBytes [ascii "certificate", ascii "cert"] d.pairs = some bytes ∧
    bytes ≠ [] ∧ L.d2iX509 bytes = some cert
  publicKey : L.x509GetPubkey cert = some pubkey

theorem signer_ok {d : Document} {cert : Cert} {pubkey : Key} :
    signer L d = .ok (cert, pubkey) ↔ CertifiedBy L d cert pubkey := by
  simp only [signer, bind_ok, require_ok, pure_ok, certificateData, Option.filter_eq_some_iff,
    decide_eq_true_eq, Prod.mk.injEq]
  constructor
  · rintro ⟨bytes, ⟨hbytes, hne⟩, _, hcert, _, hpubkey, rfl, rfl⟩
    exact ⟨⟨bytes, hbytes, hne, hcert⟩, hpubkey⟩
  · rintro ⟨⟨bytes, hbytes, hne, hcert⟩, hpubkey⟩
    exact ⟨bytes, ⟨hbytes, hne⟩, cert, hcert, pubkey, hpubkey, rfl, rfl⟩

/-! ### The signature -/

/-- All three digest calls of an attempt succeed. -/
structure Accepts (L : Libraries Cert Key) (attempt : ℕ) (md : Md) (pubkey : Key)
    (data derSig : List UInt8) : Prop where
  init : L.digestVerifyInit attempt md pubkey = true
  update : L.digestVerifyUpdate attempt data = true
  final : L.digestVerifyFinal attempt md pubkey data derSig = 1

/-- The first attempt gets to its last call, and it or an attempt with another digest accepts. -/
structure Verified (L : Libraries Cert Key) (d : Document) (pubkey : Key) : Prop where
  mdCtx : L.available .mdCtx = true
  init : L.digestVerifyInit 0 (mdOf d.algId) pubkey = true
  sigStructureBuf : L.available .sigStructureBuf = true
  update : L.digestVerifyUpdate 0 (sigStructure d) = true
  accepted : ∃ derSig, derSignature L pubkey d.signature = .ok derSig ∧
    (Accepts L 0 (mdOf d.algId) pubkey (sigStructure d) derSig ∨
      ∃ other ≠ mdOf d.algId, Accepts L (attemptOf other) other pubkey (sigStructure d) derSig)

theorem length_cborHead_le (major n : ℕ) : (cborHead major n).length ≤ 9 := by
  rw [cborHead]
  split_ifs <;> simp

/-- The buffer for the Sig_structure is large enough. -/
theorem length_sigStructure_le (d : Document) :
    (sigStructure d).length ≤ d.protectedBytes.length + d.attestationDoc.length + 100 := by
  have harray := length_cborHead_le 4 4
  have hcontext : (cborString (ascii "Signature1")).length = 11 := by decide +kernel
  have hprotected := length_cborHead_le 2 d.protectedBytes.length
  have hexternal := length_cborHead_le 2 0
  have hpayload := length_cborHead_le 2 d.attestationDoc.length
  simp only [sigStructure, cborBytestring, List.length_append, List.length_nil, hcontext]
  omega

/-- A further attempt leads to success only if it accepts. -/
theorem tryWith_eq_one {md other : Md} {pubkey : Key} {data derSig : List UInt8} {verifyResult : ℤ} :
    tryWith L md other pubkey data derSig verifyResult = 1 ↔
      verifyResult = 1 ∨ (other ≠ md ∧ Accepts L (attemptOf other) other pubkey data derSig) := by
  unfold tryWith
  split
  · rename_i h
    obtain ⟨hres, hmd, hinit, hupdate⟩ := h
    constructor
    · intro hfinal
      exact .inr ⟨Ne.symm hmd, hinit, hupdate, hfinal⟩
    · rintro (hone | ⟨_, hacc⟩)
      · exact absurd hone hres
      · exact hacc.final
  · rename_i h
    constructor
    · exact .inl
    · rintro (hone | ⟨hne, hacc⟩)
      · exact hone
      · -- an attempt that would accept is skipped only after a success
        by_contra hres
        exact h ⟨hres, Ne.symm hne, hacc.init, hacc.update⟩

theorem verifySignature_ok {d : Document} {pubkey : Key} {u : Unit} :
    verifySignature L d pubkey = .ok u ↔ Verified L d pubkey := by
  simp only [verifySignature, bind_ok, check_ok, exists_const, tryWith_eq_one]
  constructor
  · rintro ⟨hctx, hinit, hbuf, _, hupdate, derSig, hder, hres⟩
    refine ⟨hctx, hinit, hbuf, hupdate, derSig, hder, ?_⟩
    rcases hres with ((hfirst | h) | h) | h
    · exact .inl ⟨hinit, hupdate, hfirst⟩
    · exact .inr ⟨_, h⟩
    · exact .inr ⟨_, h⟩
    · exact .inr ⟨_, h⟩
  · rintro ⟨hctx, hinit, hbuf, hupdate, derSig, hder, hres⟩
    refine ⟨hctx, hinit, hbuf, length_sigStructure_le d, hupdate, derSig, hder, ?_⟩
    rcases hres with hfirst | ⟨other, h⟩
    · exact .inl (.inl (.inl hfirst.final))
    · cases other with
      | sha256 => exact .inl (.inl (.inr h))
      | sha384 => exact .inl (.inr h)
      | sha512 => exact .inr h

/-- The documents `validate_attsdoc` returns on, and what it returns. -/
theorem validateAttsdoc_ok {attsdoc : List UInt8} {r : Option Key} :
    validateAttsdoc L attsdoc = .ok r ↔ ∃ d cert pubkey, WellFormed L attsdoc d ∧
      CertifiedBy L d cert pubkey ∧ Verified L d pubkey ∧ r = enclavePubkey L d := by
  simp only [validateAttsdoc, bind_ok, pure_ok, openDocument_ok, signer_ok, verifySignature_ok,
    Prod.exists, exists_const]
  constructor
  · rintro ⟨d, hopen, cert, pubkey, hcert, hver, rfl⟩
    exact ⟨d, cert, pubkey, hopen, hcert, hver, rfl⟩
  · rintro ⟨d, cert, pubkey, hopen, hcert, hver, rfl⟩
    exact ⟨d, hopen, cert, pubkey, hcert, hver, rfl⟩

/-- An input is opened in one way only. -/
theorem WellFormed.unique {attsdoc : List UInt8} {d d' : Document} (h : WellFormed L attsdoc d)
    (h' : WellFormed L attsdoc d') : d = d' :=
  Except.ok.inj ((openDocument_ok.mpr h).symm.trans (openDocument_ok.mpr h'))

theorem CertifiedBy.unique {d : Document} {cert cert' : Cert} {pubkey pubkey' : Key}
    (h : CertifiedBy L d cert pubkey) (h' : CertifiedBy L d cert' pubkey') :
    cert = cert' ∧ pubkey = pubkey' := by
  have hs := signer_ok.mpr h
  rw [signer_ok.mpr h'] at hs
  simpa [eq_comm] using hs

/-! ### Authenticity -/

/-- `main` of the device, from the received document on: the key that `run_iiot_emulation` starts
    with. -/
def iiotMain (L : Libraries Cert Key) (order : ByteOrder) (pem attsdoc : List UInt8) :
    Choice Stopped (Option Key) := do
  let pubkeyEnclave ← liftM ((validateAttsdoc L attsdoc).mapError fun stop => Stopped.mk stop [])
  let _ ← sendLenData order pem pem.length []
  return pubkeyEnclave

/-- The device starts with what `validate_attsdoc` returned. -/
theorem iiotMain_returns {order : ByteOrder} {pem attsdoc : List UInt8} {r : Option Key}
    (h : Returns (iiotMain L order pem attsdoc) r) : validateAttsdoc L attsdoc = .ok r := by
  rw [iiotMain] at h
  obtain ⟨r', hval, h⟩ := h.bind
  obtain ⟨_, _, h⟩ := h.bind
  obtain rfl := returns_pure.mp h
  have hval := returns_lift.mp hval
  cases hv : validateAttsdoc L attsdoc with
  | error stop => simp [hv, Except.mapError] at hval
  | ok r'' => simpa [hv, Except.mapError] using hval

/-- Some attempt found the signature right over the Sig_structure. -/
def SignatureVerifies (L : Libraries Cert Key) (d : Document) (pubkey : Key) : Prop :=
  ∃ attempt md derSig, derSignature L pubkey d.signature = .ok derSig ∧
    L.digestVerifyFinal attempt md pubkey (sigStructure d) derSig = 1

theorem Verified.signature {d : Document} {pubkey : Key} (h : Verified L d pubkey) :
    SignatureVerifies L d pubkey := by
  obtain ⟨derSig, hder, hfirst | ⟨other, _, hother⟩⟩ := h.accepted
  · exact ⟨0, _, derSig, hder, hfirst.final⟩
  · exact ⟨_, _, derSig, hder, hother.final⟩

/-- A key from a payload whose signature verifies under a certificate that chains to the root. -/
def Authentic (L : Libraries Cert Key) (chains : Cert → Prop) (attsdoc : List UInt8)
    (r : Option Key) : Prop :=
  ∃ d cert pubkey bytes key, WellFormed L attsdoc d ∧ CertifiedBy L d cert pubkey ∧
    SignatureVerifies L d pubkey ∧ chains cert ∧
    firstBytes [ascii "public_key"] d.pairs = some bytes ∧ L.d2iPubkey bytes = some key ∧
    r = some key

/-- Neither the function nor the device lets anything through that is not authentic. -/
def OnlyAuthentic (L : Libraries Cert Key) (chains : Cert → Prop) (attsdoc : List UInt8) : Prop :=
  (∀ r, validateAttsdoc L attsdoc = .ok r → Authentic L chains attsdoc r) ∧
    ∀ order pem r, Returns (iiotMain L order pem attsdoc) r → Authentic L chains attsdoc r

/-- For a document that passes the checks: its certificate chains to the root, and its first
    `"public_key"` entry is there and decodes to a key. -/
def Trustworthy (L : Libraries Cert Key) (chains : Cert → Prop) (attsdoc : List UInt8) : Prop :=
  ∀ d cert pubkey, WellFormed L attsdoc d → CertifiedBy L d cert pubkey → Verified L d pubkey →
    chains cert ∧
      ∃ bytes key, firstBytes [ascii "public_key"] d.pairs = some bytes ∧ L.d2iPubkey bytes = some key

/-- The root certificate is not asked for and the key not looked at: authenticity holds for exactly the
    documents that have both of themselves. -/
theorem authentic_iff (L : Libraries Cert Key) (chains : Cert → Prop) (attsdoc : List UInt8) :
    OnlyAuthentic L chains attsdoc ↔ Trustworthy L chains attsdoc := by
  constructor
  · rintro ⟨h, _⟩ d cert pubkey hopen hcert hver
    have hret := validateAttsdoc_ok.mpr ⟨d, cert, pubkey, hopen, hcert, hver, rfl⟩
    obtain ⟨d', cert', pubkey', bytes, key, hopen', hcert', _, hchain, hbytes, hkey, _⟩ := h _ hret
    obtain rfl := hopen.unique hopen'
    obtain ⟨rfl, rfl⟩ := hcert.unique hcert'
    exact ⟨hchain, bytes, key, hbytes, hkey⟩
  · intro h
    have hval : ∀ r, validateAttsdoc L attsdoc = .ok r → Authentic L chains attsdoc r := by
      intro r hr
      obtain ⟨d, cert, pubkey, hopen, hcert, hver, rfl⟩ := validateAttsdoc_ok.mp hr
      obtain ⟨hchain, bytes, key, hbytes, hkey⟩ := h d cert pubkey hopen hcert hver
      refine ⟨d, cert, pubkey, bytes, key, hopen, hcert, hver.signature, hchain, hbytes, hkey, ?_⟩
      rw [enclavePubkey, hbytes, Option.bind_some, hkey]
    exact ⟨hval, fun order pem r hr => hval r (iiotMain_returns hr)⟩

/-! ### A forged document

    Certificates and keys are numbers here: the certificate `[0x30, k]` is the self-signed one of the
    key `k`, and a signature with `k` is `k` in front of what is signed. -/

/-- `{1: -35}` -/
def forgedHeader : List UInt8 := [0xA1, 0x01, 0x38, 0x22]

/-- `{"certificate": h'3042', "public_key": h'42'}` -/
def forgedPayload : List UInt8 :=
  [0xA2] ++ cborString (ascii "certificate") ++ cborBytestring [0x30, 0x42] ++
    cborString (ascii "public_key") ++ cborBytestring [0x42]

def forgedPairs : List (Item × Item) :=
  [(.string (ascii "certificate"), .bytestring [0x30, 0x42]),
    (.string (ascii "public_key"), .bytestring [0x42])]

def forgedSignature : List UInt8 :=
  0x42 :: sigStructure ⟨forgedHeader, -35, forgedPayload, [], forgedPairs⟩

/-- Tag 18 of the array of header, empty map, payload and signature. -/
def forgedAttsdoc : List UInt8 :=
  [0xD2, 0x84] ++ cborBytestring forgedHeader ++ [0xA0] ++ cborBytestring forgedPayload ++
    cborBytestring forgedSignature

def forgeryLibraries : Libraries ℕ ℕ where
  cborLoad bytes :=
    if bytes = forgedAttsdoc then
      some (.tag 18 (.array [.bytestring forgedHeader, .map [], .bytestring forgedPayload,
        .bytestring forgedSignature]))
    else if bytes = forgedHeader then some (.map [(.uint 1, .negint 34)])
    else if bytes = forgedPayload then some (.map forgedPairs)
    else none
  d2iX509 bytes := match bytes with
    | [0x30, k] => some k.toNat
    | _ => none
  x509GetPubkey cert := some cert
  isEc _ := false
  available _ := true
  digestVerifyInit _ _ _ := true
  digestVerifyUpdate _ _ := true
  digestVerifyFinal _ _ pubkey data derSig := if derSig = UInt8.ofNat pubkey :: data then 1 else 0
  i2dEcdsaSig _ _ := none
  d2iPubkey bytes := match bytes with
    | [k] => some k.toNat
    | _ => none

/-- Under a root that has certified the key 1 only, the device starts with the key `0x42` of whoever
    sent the document. -/
theorem forgery_accepted :
    validateAttsdoc forgeryLibraries forgedAttsdoc = .ok (some 0x42) ∧
      Returns (iiotMain forgeryLibraries .little [1, 2, 3] forgedAttsdoc) (some 0x42) ∧
      ¬ OnlyAuthentic forgeryLibraries (fun cert => cert = 1) forgedAttsdoc := by
  have hval : validateAttsdoc forgeryLibraries forgedAttsdoc = .ok (some 0x42) := by decide +kernel
  have hmain : iiotMain forgeryLibraries .little [1, 2, 3] forgedAttsdoc [4, 3] =
      .ok (some 0x42, []) := by decide +kernel
  refine ⟨hval, ⟨[4, 3], [], hmain⟩, ?_⟩
  rintro ⟨h, _⟩
  obtain ⟨d, cert, pubkey, _, _, hopen, hcert, _, rfl, _⟩ := h _ hval
  have hsigner : (openDocument forgeryLibraries forgedAttsdoc >>= signer forgeryLibraries) =
      .ok (0x42, 0x42) := by decide +kernel
  rw [openDocument_ok.mpr hopen] at hsigner
  have hcert' : signer forgeryLibraries d = .ok (0x42, 0x42) := hsigner
  have hone := (hcert.unique (signer_ok.mp hcert')).1
  exact absurd hone (by decide)

end MutualEdge.Sgx
