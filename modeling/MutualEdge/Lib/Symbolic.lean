import Mathlib.Data.Set.Defs
import Mathlib.Tactic.Common

/-! Public-key encryption, idealised: who can build which terms, and who can read them.

    A ciphertext is a term that is opened with the private key only; its seed makes every encryption a
    term of its own. `Derives A S t` says that an adversary of power `A` that has seen the terms `S`
    can come up with `t`. It cannot come up with an honest ciphertext it has not seen (`origin`), and
    of what is kept from it in every term it has seen it learns nothing (`guarded`). -/

namespace Symbolic

variable {Key Msg Seed : Type}

inductive Term (Key Msg Seed : Type) where
  | text (m : Msg)
  | pub (k : Key)
  | enc (k : Key) (m : Msg) (r : Seed)
  deriving DecidableEq

/-- The private keys an adversary holds, the messages it knows from the start, and the seeds it draws,
    which are not those of the honest parties. -/
structure Power (Key Msg Seed : Type) where
  holds : Key → Prop
  knows : Msg → Prop
  draws : Seed → Prop

inductive Derives (A : Power Key Msg Seed) (S : Set (Term Key Msg Seed)) : Term Key Msg Seed → Prop
  | seen {t} : t ∈ S → Derives A S t
  | text {m} : A.knows m → Derives A S (.text m)
  | pub {k} : A.holds k → Derives A S (.pub k)
  | enc {k m r} : Derives A S (.text m) → Derives A S (.pub k) → A.draws r → Derives A S (.enc k m r)
  | dec {k m r} : Derives A S (.enc k m r) → A.holds k → Derives A S (.text m)

/-- What the owner of a key pair reads. -/
def decrypt [DecidableEq Key] (k : Key) : Term Key Msg Seed → Option Msg
  | .enc k' m _ => if k' = k then some m else none
  | _ => none

/-- A term that gives nothing away: it is not a message the adversary does not know, nor such a message
    under a key it holds. -/
def Guarded (A : Power Key Msg Seed) : Term Key Msg Seed → Prop
  | .text m => A.knows m
  | .pub _ => True
  | .enc k m _ => A.holds k → A.knows m

section Adversary
variable {A : Power Key Msg Seed} {S : Set (Term Key Msg Seed)}

/-- A ciphertext with a seed that is not the adversary's is one that it has seen. -/
theorem Derives.origin {k : Key} {m : Msg} {r : Seed} (h : Derives A S (.enc k m r))
    (hr : ¬ A.draws r) : Term.enc k m r ∈ S := by
  cases h with
  | seen h => exact h
  | enc _ _ hdraws => exact absurd hdraws hr

/-- From terms that give nothing away only such terms are derived. -/
theorem Derives.guarded (hS : ∀ t ∈ S, Guarded A t) {t : Term Key Msg Seed} (h : Derives A S t) :
    Guarded A t := by
  induction h with
  | seen h => exact hS _ h
  | text h => exact h
  | pub _ => trivial
  | enc _ _ _ ih _ => exact fun _ => ih
  | dec _ hk ih => exact ih hk

end Adversary

end Symbolic
