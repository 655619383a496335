import ScreenSharing.Crypto.Cpace

/-!
# Key derivation

The parameters of the password hardening that a host proposes and a peer accepts, and the keys of the
two directions of a connection.
-/

namespace ScreenSharing.Crypto

open Lib

structure ArgonParams where
  /-- memory in KiB -/
  m : ℕ
  /-- iterations -/
  t : ℕ
  /-- parallelism -/
  p : ℕ
  deriving DecidableEq

/-- `MIN_ARGON_PARAMS`. -/
def minArgonParams : ArgonParams := ⟨19456, 2, 1⟩

def argonParamsAcceptable (p : ArgonParams) : Bool :=
  p.m ≥ minArgonParams.m && p.t ≥ minArgonParams.t && p.p ≥ 1 && p.m ≤ 1048576 && p.t ≤ 16 &&
    p.p ≤ 4

structure DirectionKeys where
  key : Bytes
  nonceSalt : Bytes
  deriving DecidableEq

structure TransportKeys where
  /-- peer to host -/
  c2s : DirectionKeys
  /-- host to peer -/
  s2c : DirectionKeys
  deriving DecidableEq

def deriveTransportKeys {P : Type*} [AddCommGroup P] (prim : Primitives P) (isk : Bytes) :
    TransportKeys where
  c2s := ⟨expandKey prim isk "frame-c2s/v1" 32, expandKey prim isk "frame-c2s-salt/v1" 4⟩
  s2c := ⟨expandKey prim isk "frame-s2c/v1" 32, expandKey prim isk "frame-s2c-salt/v1" 4⟩

/-- Acceptable parameters are positive. -/
theorem pos_of_acceptable {p : ArgonParams} (h : argonParamsAcceptable p = true) :
    0 < p.m ∧ 0 < p.t ∧ 0 < p.p := by
  unfold argonParamsAcceptable minArgonParams at h
  simp only [Bool.and_eq_true, decide_eq_true_iff] at h
  omega

end ScreenSharing.Crypto
