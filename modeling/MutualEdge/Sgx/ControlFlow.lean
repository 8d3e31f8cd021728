import MutualEdge.Sgx.Attestation

/-! Every way out of `validate_attsdoc` that is not an exit.

    The result of the verification is handed from one attempt to the next and some attempts are
    skipped. `validateAttsdoc_returns` says what a return stands for all the same: one attempt over the
    Sig_structure of this very document went through, and the key comes from its payload. The direct
    verification over the payload plays no part in it. -/

namespace MutualEdge.Sgx
open Checks

variable {Cert Key : Type} {L : Libraries Cert Key}

/-- The value belongs to the first entry whose key, read as a C string, is one of the names and whose
    value is a byte string. -/
def FirstEntry (names : List (List UInt8)) (pairs : List (Item × Item)) (value : List UInt8) :
    Prop :=
  ∃ before key after, pairs = before ++ (.string key, .bytestring value) :: after ∧
    cString key ∈ names ∧ ∀ k v, (Item.string k, Item.bytestring v) ∈ before → cString k ∉ names

theorem firstBytes_some {names : List (List UInt8)} {pairs : List (Item × Item)}
    {value : List UInt8} (h : firstBytes names pairs = some value) :
    FirstEntry names pairs value := by
  obtain ⟨before, entry, after, rfl, hentry, hbefore⟩ := List.findSome?_eq_some_iff.mp h
  have hkey : ∃ key, entry = (.string key, .bytestring value) ∧ cString key ∈ names := by
    split at hentry
    · rename_i key v
      rw [Option.ite_none_right_eq_some] at hentry
      obtain ⟨hmem, heq⟩ := hentry
      exact ⟨key, by rw [Option.some.inj heq], hmem⟩
    · cases hentry
  obtain ⟨key, rfl, hmem⟩ := hkey
  refine ⟨before, key, after, rfl, hmem, ?_⟩
  intro k v hkv hk
  simpa [hk] using hbefore _ hkv

/-- The signature handed to the digest calls: the document's own, or `r` and `s` of a raw one in DER. -/
def DerOf (L : Libraries Cert Key) (pubkey : Key) (sig derSig : List UInt8) : Prop :=
  derSig = sig ∨ (L.isEc pubkey = true ∧ (sig.length = 64 ∨ sig.length = 96 ∨ sig.length = 132) ∧
    L.i2dEcdsaSig (sig.take (sig.length / 2)) (sig.drop (sig.length / 2)) = some derSig)

theorem derSignature_ok {pubkey : Key} {sig derSig : List UInt8}
    (h : derSignature L pubkey sig = .ok derSig) : DerOf L pubkey sig derSig := by
  rw [derSignature] at h
  split at h
  · rename_i hraw
    simp only [bind_ok, check_ok, require_ok, pure_ok, exists_const] at h
    obtain ⟨_, _, _, der, hder, _, rfl⟩ := h
    refine .inr ⟨hraw.1, hraw.2, ?_⟩
    -- an even number of bytes: the second half is all of the rest
    have hhalf : (sig.drop (sig.length / 2)).take (sig.length / 2) = sig.drop (sig.length / 2) := by
      rw [List.take_of_length_le]
      rw [List.length_drop]
      omega
    rwa [hhalf] at hder
  · exact .inl (pure_ok.mp h).symm

/-- The same libraries with other answers in the direct verification over the payload. -/
def Libraries.withDirect (L : Libraries Cert Key) (init : Md → Key → Bool)
    (update : List UInt8 → Bool) (final : Md → Key → List UInt8 → List UInt8 → ℤ) :
    Libraries Cert Key :=
  { L with
    digestVerifyInit := fun attempt => if attempt = 4 then init else L.digestVerifyInit attempt
    digestVerifyUpdate := fun attempt => if attempt = 4 then update else L.digestVerifyUpdate attempt
    digestVerifyFinal := fun attempt => if attempt = 4 then final else L.digestVerifyFinal attempt }

theorem attemptOf_lt (md : Md) : attemptOf md < 4 := by cases md <;> decide

section Direct
variable {init : Md → Key → Bool} {update : List UInt8 → Bool}
  {final : Md → Key → List UInt8 → List UInt8 → ℤ}

theorem Accepts.withDirect {attempt : ℕ} {md : Md} {pubkey : Key} {data derSig : List UInt8}
    (hlt : attempt < 4) (h : Accepts L attempt md pubkey data derSig) :
    Accepts (L.withDirect init update final) attempt md pubkey data derSig := by
  obtain ⟨hinit, hupdate, hfinal⟩ := h
  have hne : attempt ≠ 4 := by omega
  refine ⟨?_, ?_, ?_⟩
  · rw [Libraries.withDirect]
    simpa [hne] using hinit
  · rw [Libraries.withDirect]
    simpa [hne] using hupdate
  · rw [Libraries.withDirect]
    simpa [hne] using hfinal

/-- The direct verification has no say in what is verified. -/
theorem Verified.withDirect {d : Document} {pubkey : Key} (h : Verified L d pubkey) :
    Verified (L.withDirect init update final) d pubkey := by
  obtain ⟨hctx, hinit, hbuf, hupdate, derSig, hder, haccepted⟩ := h
  refine ⟨hctx, ?_, hbuf, ?_, derSig, hder, ?_⟩
  · simpa [Libraries.withDirect] using hinit
  · simpa [Libraries.withDirect] using hupdate
  · rcases haccepted with hfirst | ⟨other, hne, hother⟩
    · exact .inl (hfirst.withDirect (by decide))
    · exact .inr ⟨other, hne, hother.withDirect (attemptOf_lt other)⟩

end Direct

/-- What a return stands for: the document is a COSE_Sign1 over a map; the key under which it was
    verified is that of the first certificate entry of the map; one attempt with one of the three digests
    went through all its calls over the Sig_structure; and a key that is returned was decoded from the
    first `"public_key"` entry. No answer in the direct verification makes a difference. -/
theorem validateAttsdoc_returns {attsdoc : List UInt8} {r : Option Key}
    (h : validateAttsdoc L attsdoc = .ok r) :
    (∃ d cert pubkey certData, WellFormed L attsdoc d ∧
      FirstEntry [ascii "certificate", ascii "cert"] d.pairs certData ∧
      L.d2iX509 certData = some cert ∧ L.x509GetPubkey cert = some pubkey ∧
      (∃ attempt < 4, ∃ md derSig, DerOf L pubkey d.signature derSig ∧
        Accepts L attempt md pubkey (sigStructure d) derSig) ∧
      ∀ key, r = some key → ∃ bytes, FirstEntry [ascii "public_key"] d.pairs bytes ∧
        L.d2iPubkey bytes = some key) ∧
    ∀ init update final, validateAttsdoc (L.withDirect init update final) attsdoc = .ok r := by
  obtain ⟨d, cert, pubkey, hopen, hcert, hver, rfl⟩ := validateAttsdoc_ok.mp h
  refine ⟨?_, ?_⟩
  · obtain ⟨⟨certData, hdata, _, hparse⟩, hpubkey⟩ := hcert
    refine ⟨d, cert, pubkey, certData, hopen, firstBytes_some hdata, hparse, hpubkey, ?_, ?_⟩
    · obtain ⟨derSig, hder, hfirst | ⟨other, _, hother⟩⟩ := hver.accepted
      · exact ⟨0, by decide, _, derSig, derSignature_ok hder, hfirst⟩
      · exact ⟨_, attemptOf_lt other, other, derSig, derSignature_ok hder, hother⟩
    · intro key hkey
      obtain ⟨bytes, hbytes, hdecode⟩ := Option.bind_eq_some_iff.mp hkey
      exact ⟨bytes, firstBytes_some hbytes, hdecode⟩
  · intro init update final
    exact validateAttsdoc_ok.mpr ⟨d, cert, pubkey, ⟨hopen.coseSign1, hopen.protectedHeader,
      hopen.algorithm, hopen.payload⟩, ⟨hcert.certificate, hcert.publicKey⟩, hver.withDirect, rfl⟩

theorem validateAttsdoc_returns_forged : ∃ d bytes, WellFormed forgeryLibraries forgedAttsdoc d ∧
    FirstEntry [ascii "public_key"] d.pairs bytes ∧ forgeryLibraries.d2iPubkey bytes = some 0x42 := by
  have hval : validateAttsdoc forgeryLibraries forgedAttsdoc = .ok (some 0x42) := by decide +kernel
  obtain ⟨d, _, _, _, hopen, _, _, _, _, hkey⟩ := (validateAttsdoc_returns hval).1
  obtain ⟨bytes, hbytes, hdecode⟩ := hkey 0x42 rfl
  exact ⟨d, bytes, hopen, hbytes, hdecode⟩

end MutualEdge.Sgx
