import Mathlib.Data.ZMod.Basic
import Mathlib.SetTheory.Cardinal.Finite
import Mathlib.Tactic.IntervalCases
import ScreenSharing.Crypto.Cpace

/-!
# Who confirms whom

The two sides of CPace compute the same secret exactly if their generators agree (`secret_eq_iff`),
and the generators agree exactly if the password keys and the bindings do, since every encoding on the
way can be taken apart again: the generator string and the transcript field by field, the channel id
at its first slash after the version, the input of the MAC by the fixed lengths of its parts.

`cpace_confirms` puts it together: both sides confirm if and only if they agree, and a MAC is accepted
only for the transcript it was computed for.
-/

namespace ScreenSharing.Crypto

open Lib

/-! ### The comparison -/

theorem foldl_or_eq_zero (bs : Bytes) : ∀ acc : UInt8,
    bs.foldl (· ||| ·) acc = 0 ↔ acc = 0 ∧ ∀ b ∈ bs, b = 0 := by
  induction bs with
  | nil =>
    intro acc
    simp
  | cons b bs ih =>
    intro acc
    rw [List.foldl_cons, ih, UInt8.or_eq_zero_iff, List.forall_mem_cons, and_assoc]

theorem zipWith_xor_eq_zero {a b : Bytes} (hlen : a.length = b.length) :
    (∀ x ∈ a.zipWith (· ^^^ ·) b, x = 0) ↔ a = b := by
  induction a generalizing b with
  | nil =>
    obtain rfl := List.eq_nil_of_length_eq_zero hlen.symm
    simp
  | cons x a ih =>
    cases b with
    | nil => cases hlen
    | cons y b =>
      rw [List.zipWith_cons_cons, List.forall_mem_cons, ih (Nat.succ.inj hlen),
        UInt8.xor_eq_zero_iff, List.cons.injEq]

/-- **The comparison is equality.** -/
theorem constantTimeEqual_iff (a b : Bytes) : constantTimeEqual a b = true ↔ a = b := by
  unfold constantTimeEqual
  split
  · next hlen =>
    constructor
    · intro h
      cases h
    · rintro rfl
      exact absurd rfl hlen
  · next hlen =>
    rw [not_not] at hlen
    rw [beq_iff_eq, foldl_or_eq_zero, zipWith_xor_eq_zero hlen]
    exact ⟨And.right, fun h => ⟨rfl, h⟩⟩

theorem constantTimeEqual_eq_false {a b : Bytes} (h : a ≠ b) : constantTimeEqual a b = false := by
  rw [← Bool.not_eq_true, constantTimeEqual_iff]
  exact h

/-! ### The encodings -/

/-- A decimal digit is one byte, and not the byte of a slash. -/
theorem utf8_digit {c : Char} (h : c.isDigit = true) :
    String.utf8EncodeChar c = [UInt8.ofNat c.toNat] ∧ 48 ≤ c.toNat ∧ c.toNat ≤ 57 := by
  unfold Char.isDigit at h
  rw [Bool.and_eq_true, decide_eq_true_iff, decide_eq_true_iff] at h
  have hlow : 48 ≤ c.toNat := h.1
  have hhigh : c.toNat ≤ 57 := h.2
  refine ⟨?_, hlow, hhigh⟩
  have hsmall : c.val.toNat ≤ 127 := by
    show c.toNat ≤ 127
    omega
  unfold String.utf8EncodeChar
  exact if_pos hsmall

theorem utf8_digits_injective {l l' : List Char} (hl : ∀ c ∈ l, c.isDigit = true)
    (hl' : ∀ c ∈ l', c.isDigit = true)
    (h : l.flatMap String.utf8EncodeChar = l'.flatMap String.utf8EncodeChar) : l = l' := by
  induction l generalizing l' with
  | nil =>
    cases l' with
    | nil => rfl
    | cons c' l' =>
      rw [List.flatMap_cons, (utf8_digit (hl' c' List.mem_cons_self)).1] at h
      cases h
  | cons c l ih =>
    obtain ⟨hc, -, hhigh⟩ := utf8_digit (hl c List.mem_cons_self)
    cases l' with
    | nil =>
      rw [List.flatMap_cons, hc] at h
      cases h
    | cons c' l' =>
      obtain ⟨hc', -, hhigh'⟩ := utf8_digit (hl' c' List.mem_cons_self)
      rw [List.flatMap_cons, List.flatMap_cons, hc, hc'] at h
      obtain ⟨hbyte, hrest⟩ := List.cons.inj h
      have hchar : c = c' := Char.toNat_inj.mp (ofNat_inj (by omega) (by omega) hbyte)
      rw [hchar, ih (fun d hd => hl d (List.mem_cons_of_mem _ hd))
        (fun d hd => hl' d (List.mem_cons_of_mem _ hd)) hrest]

theorem utf8ToBytes_append (s t : String) :
    utf8ToBytes (s ++ t) = utf8ToBytes s ++ utf8ToBytes t := by
  unfold utf8ToBytes
  rw [String.toList_append, List.flatMap_append]

theorem utf8ToBytes_nat (n : ℕ) :
    utf8ToBytes (toString n) = (Nat.toDigits 10 n).flatMap String.utf8EncodeChar := by
  unfold utf8ToBytes
  rw [show toString n = n.repr from rfl, Nat.toList_repr]

theorem isDigit_of_mem {n : ℕ} : ∀ c ∈ Nat.toDigits 10 n, c.isDigit = true :=
  fun _ hc => Nat.isDigit_of_mem_toDigits (by decide) (by decide) hc

/-- The bytes of a number contain no slash. -/
theorem slash_not_mem_nat (n : ℕ) : (47 : UInt8) ∉ utf8ToBytes (toString n) := by
  rw [utf8ToBytes_nat, List.mem_flatMap]
  rintro ⟨c, hc, hmem⟩
  obtain ⟨henc, hlow, hhigh⟩ := utf8_digit (isDigit_of_mem c hc)
  rw [henc, List.mem_singleton] at hmem
  have hnat : 47 = c.toNat := ofNat_inj (by omega) (by omega) hmem
  omega

theorem utf8_nat_injective {m n : ℕ} (h : utf8ToBytes (toString m) = utf8ToBytes (toString n)) :
    m = n := by
  rw [utf8ToBytes_nat, utf8ToBytes_nat] at h
  have hdigits := utf8_digits_injective isDigit_of_mem isDigit_of_mem h
  rw [← Nat.ofDigitChars_ten_toDigits (n := m), hdigits, Nat.ofDigitChars_ten_toDigits]

/-- Where the first part ends can be told from a separator that is in neither. -/
theorem append_separator_inj {sep : UInt8} {xs xs' ys ys' : Bytes} (hxs : sep ∉ xs)
    (hxs' : sep ∉ xs') (h : xs ++ sep :: ys = xs' ++ sep :: ys') : xs = xs' ∧ ys = ys' := by
  induction xs generalizing xs' with
  | nil =>
    cases xs' with
    | nil => exact ⟨rfl, (List.cons.inj h).2⟩
    | cons x' xs' =>
      obtain ⟨rfl, -⟩ := List.cons.inj h
      exact absurd List.mem_cons_self hxs'
  | cons x xs ih =>
    cases xs' with
    | nil =>
      obtain ⟨rfl, -⟩ := List.cons.inj h
      exact absurd List.mem_cons_self hxs
    | cons x' xs' =>
      obtain ⟨rfl, hrest⟩ := List.cons.inj h
      obtain ⟨rfl, hys⟩ := ih (fun hmem => hxs (List.mem_cons_of_mem _ hmem))
        (fun hmem => hxs' (List.mem_cons_of_mem _ hmem)) hrest
      exact ⟨rfl, hys⟩

theorem channelId_eq (b : CpaceBinding) :
    channelId b = utf8ToBytes "erros-share/v" ++
      (utf8ToBytes (toString b.protocolVersion) ++ 47 :: b.roomId) := by
  have hparts : ∀ (s t u : String) (bs : Bytes), utf8ToBytes (s ++ t ++ u) ++ bs =
      utf8ToBytes s ++ (utf8ToBytes t ++ (utf8ToBytes u ++ bs)) := by
    intro s t u bs
    rw [utf8ToBytes_append, utf8ToBytes_append, List.append_assoc, List.append_assoc]
  have hslash : utf8ToBytes "/" = [47] := by decide
  have htail : utf8ToBytes "/" ++ b.roomId = 47 :: b.roomId := by
    rw [hslash]
    rfl
  exact (hparts _ _ _ _).trans (congrArg (utf8ToBytes "erros-share/v" ++ ·)
    (congrArg (utf8ToBytes (toString b.protocolVersion) ++ ·) htail))

/-- **The channel id determines the binding**: the version ends at the first slash after it. -/
theorem channelId_injective {b b' : CpaceBinding} (h : channelId b = channelId b') : b = b' := by
  rw [channelId_eq, channelId_eq] at h
  have hrest := List.append_cancel_left h
  obtain ⟨hversion, hroom⟩ := append_separator_inj (slash_not_mem_nat b.protocolVersion)
    (slash_not_mem_nat b'.protocolVersion) hrest
  cases b
  cases b'
  rw [CpaceBinding.mk.injEq]
  exact ⟨hroom, utf8_nat_injective hversion⟩

/-- **The generator string determines** the password key, the channel id and the session id. -/
theorem generatorString_injective {w w' ci ci' sid sid' : Bytes}
    (h : generatorString w ci sid = generatorString w' ci' sid') :
    w = w' ∧ ci = ci' ∧ sid = sid' := by
  unfold generatorString at h
  have hfields := lvCat_inj h
  obtain ⟨-, hfields⟩ := List.cons.inj hfields
  obtain ⟨hw, hfields⟩ := List.cons.inj hfields
  obtain ⟨-, hfields⟩ := List.cons.inj hfields
  obtain ⟨hci, hfields⟩ := List.cons.inj hfields
  exact ⟨hw, hci, (List.cons.inj hfields).1⟩

section Protocol

variable {P : Type*} [AddCommGroup P] (prim : Primitives P)

/-- **The input determines** the transcript and the secret. -/
theorem iskInput_injective {sid sid' k k' msgA msgA' adA adA' msgB msgB' adB adB' : Bytes}
    (h : iskInput sid k msgA adA msgB adB = iskInput sid' k' msgA' adA' msgB' adB') :
    sid = sid' ∧ k = k' ∧ msgA = msgA' ∧ adA = adA' ∧ msgB = msgB' ∧ adB = adB' := by
  have hflat : ∀ sid k msgA adA msgB adB : Bytes, iskInput sid k msgA adA msgB adB =
      lvCat [dsiIsk, sid, k, msgA, adA, msgB, adB] := by
    intro sid k msgA adA msgB adB
    simp [iskInput, lvCat]
  rw [hflat, hflat] at h
  simpa using lvCat_inj h

/-- The transcript determines the secret. -/
theorem deriveIsk_injective (hideal : prim.Ideal) {sid k k' msgA adA msgB adB : Bytes}
    (h : deriveIsk prim sid k msgA adA msgB adB = deriveIsk prim sid k' msgA adA msgB adB) :
    k = k' := by
  unfold deriveIsk at h
  exact (iskInput_injective (hideal.sha512_injective h)).2.1

theorem length_tag (role : Role) : (utf8ToBytes role.tag).length = 4 := by
  cases role <;> decide

/-- **A MAC determines** the key, the role and the transcript. -/
theorem macFor_injective (hideal : prim.Ideal) {isk isk' sid sid' ya ya' yb yb' : Bytes} {role role' : Role}
    (hsid : sid.length = sidBytes) (hsid' : sid'.length = sidBytes)
    (hya : ya.length = pointBytes) (hya' : ya'.length = pointBytes)
    (h : macFor prim isk role sid ya yb = macFor prim isk' role' sid' ya' yb') :
    isk = isk' ∧ role = role' ∧ sid = sid' ∧ ya = ya' ∧ yb = yb' := by
  obtain ⟨hkey, hmsg⟩ := hideal.hmac_injective h
  rw [List.append_assoc, List.append_assoc, List.append_assoc, List.append_assoc] at hmsg
  obtain ⟨htag, hmsg⟩ := List.append_inj hmsg (by rw [length_tag, length_tag])
  obtain ⟨hsids, hmsg⟩ := List.append_inj hmsg (hsid.trans hsid'.symm)
  obtain ⟨hyas, hybs⟩ := List.append_inj hmsg (hya.trans hya'.symm)
  refine ⟨hideal.hkdf_injective hkey, ?_, hsids, hyas, hybs⟩
  cases role <;> cases role' <;> first | rfl | exact absurd htag (by decide)

/-! ### The group -/

/-- In a group of prime order a nonzero scalar can be cancelled. -/
theorem nsmul_injective (s : Scalar prim.order) {p p' : P} (h : s.1 • p = s.1 • p') : p = p' := by
  have hdiff : s.1 • (p - p') = 0 := by rw [nsmul_sub, h, sub_self]
  have hdvd : addOrderOf (p - p') ∣ s.1 := addOrderOf_dvd_of_nsmul_eq_zero hdiff
  have horder : addOrderOf (p - p') ∣ prim.order := by
    rw [← prim.card]
    exact addOrderOf_dvd_natCard _
  rcases (Nat.dvd_prime prim.order_prime).mp horder with hone | hall
  · rw [AddMonoid.addOrderOf_eq_one_iff, sub_eq_zero] at hone
    exact hone
  · rw [hall] at hdvd
    exact absurd (Nat.le_of_dvd s.2.1 hdvd) (Nat.not_le.mpr s.2.2)

theorem nsmul_ne_zero (s : Scalar prim.order) {p : P} (hp : p ≠ 0) : s.1 • p ≠ 0 := by
  intro h
  refine hp (nsmul_injective prim s ?_)
  rw [h, nsmul_zero]

/-- **The two secrets** are equal exactly if the generators are. -/
theorem secret_eq_iff (x y : Scalar prim.order) (g g' : P) :
    x.1 • y.1 • g' = y.1 • x.1 • g ↔ g = g' := by
  constructor
  · intro h
    rw [nsmul_left_comm g' y.1 x.1] at h
    exact (nsmul_injective prim x (nsmul_injective prim y h)).symm
  · rintro rfl
    exact nsmul_left_comm _ _ _

/-! ### The generators -/

/-- The inputs of the two sides do not collide in the group. -/
def CollisionFree (w w' : Bytes) (b b' : CpaceBinding) (sid : Bytes) : Prop :=
  calculateGenerator prim w b sid = calculateGenerator prim w' b' sid →
    prim.sha512 (generatorString w (channelId b) sid) =
      prim.sha512 (generatorString w' (channelId b') sid)

/-- **The generators agree** exactly if the password keys and the bindings do. -/
theorem generator_eq_iff (hideal : prim.Ideal) {w w' : Bytes} {b b' : CpaceBinding} {sid : Bytes}
    (hcurve : CollisionFree prim w w' b b' sid) :
    calculateGenerator prim w b sid = calculateGenerator prim w' b' sid ↔ w = w' ∧ b = b' := by
  constructor
  · intro h
    obtain ⟨hw, hci, -⟩ := generatorString_injective (hideal.sha512_injective (hcurve h))
    exact ⟨hw, channelId_injective hci⟩
  · rintro ⟨rfl, rfl⟩
    rfl

/-! ### What the two functions return -/

theorem generator_ne_zero (w : Bytes) (binding : CpaceBinding) (sid : Bytes) :
    calculateGenerator prim w binding sid ≠ 0 := prim.deriveToCurve_ne_zero _

/-- What `peerBegin` returns. -/
theorem peerBegin_eq_ok {w sid : Bytes} {binding : CpaceBinding} {x : Scalar prim.order}
    {peer : PeerHandshake prim.order} :
    peerBegin prim w binding sid x = .ok peer ↔ sid.length = sidBytes ∧
      peer = ⟨sid, x, prim.encode (x.1 • calculateGenerator prim w binding sid)⟩ := by
  unfold peerBegin
  split
  · next hsid => exact ⟨fun h => (by cases h), fun h => absurd h.1 hsid⟩
  · next hsid =>
    rw [Except.ok.injEq]
    exact ⟨fun h => ⟨not_not.mp hsid, h.symm⟩, fun h => h.2.symm⟩

variable [DecidableEq P]

theorem decodeShare_encode {p : P} (hp : p ≠ 0) (who : String) :
    decodeShare prim (prim.encode p) who = .ok p := by
  unfold decodeShare
  rw [if_neg (not_not.mpr (prim.length_encode p)), prim.decode_encode]
  exact if_neg hp

/-- A share that is accepted has the length of a point. -/
theorem length_of_decodeShare {bytes : Bytes} {who : String} {p : P}
    (h : decodeShare prim bytes who = .ok p) : bytes.length = pointBytes := by
  unfold decodeShare at h
  split at h
  · cases h
  · next hlen => exact not_not.mp hlen

/-- What `finish` returns: a key, the peer's MAC of the transcript under it, and whether the host's
MAC is the one of the transcript. -/
theorem finish_eq_ok {peer : PeerHandshake prim.order} {yb macHost : Bytes} {result : PeerResult} :
    peer.finish prim yb macHost = .ok result ↔
      ∃ p, decodeShare prim yb "host" = .ok p ∧ peer.scalar.1 • p ≠ 0 ∧
        result.isk = deriveIsk prim peer.sid (prim.encode (peer.scalar.1 • p)) peer.ya [] yb [] ∧
        result.macPeer = macFor prim result.isk .peer peer.sid peer.ya yb ∧
        result.hostConfirmed =
          constantTimeEqual macHost (macFor prim result.isk .host peer.sid peer.ya yb) := by
  unfold PeerHandshake.finish
  split
  · next e herr => exact ⟨fun h => (by cases h), fun ⟨p, hp, _⟩ => (by rw [herr] at hp; cases hp)⟩
  · next q hq =>
    dsimp only
    split
    · next hzero =>
      refine ⟨fun h => (by cases h), fun ⟨p, hp, hne, _⟩ => ?_⟩
      obtain rfl : q = p := Except.ok.inj (hq.symm.trans hp)
      exact absurd hzero hne
    · next hne =>
      constructor
      · intro h
        obtain rfl := Except.ok.inj h
        exact ⟨q, hq, hne, rfl, rfl, rfl⟩
      · rintro ⟨p, hp, -, hisk, hmac, hconfirmed⟩
        obtain rfl : q = p := Except.ok.inj (hq.symm.trans hp)
        obtain ⟨isk, macPeer, hostConfirmed⟩ := result
        dsimp only at hisk hmac hconfirmed
        rw [hmac, hconfirmed, hisk]

/-- What `hostRespond` returns: the share, a key, and both MACs of the transcript under it. -/
theorem hostRespond_eq_ok {w sid ya : Bytes} {binding : CpaceBinding} {y : Scalar prim.order}
    {host : HostHandshake} :
    hostRespond prim w binding sid ya y = .ok host ↔
      sid.length = sidBytes ∧ ∃ p, decodeShare prim ya "peer" = .ok p ∧ y.1 • p ≠ 0 ∧
        host.yb = prim.encode (y.1 • calculateGenerator prim w binding sid) ∧
        host.isk = deriveIsk prim sid (prim.encode (y.1 • p)) ya [] host.yb [] ∧
        host.macHost = macFor prim host.isk .host sid ya host.yb ∧
        host.expectedPeer = macFor prim host.isk .peer sid ya host.yb := by
  unfold hostRespond
  split
  · next hsid => exact ⟨fun h => (by cases h), fun h => absurd h.1 hsid⟩
  · next hsid =>
    rw [not_not] at hsid
    dsimp only
    split
    · next e herr =>
      exact ⟨fun h => (by cases h), fun ⟨_, p, hp, _⟩ => (by rw [herr] at hp; cases hp)⟩
    · next q hq =>
      split
      · next hzero =>
        refine ⟨fun h => (by cases h), fun ⟨_, p, hp, hne, _⟩ => ?_⟩
        obtain rfl : q = p := Except.ok.inj (hq.symm.trans hp)
        exact absurd hzero hne
      · next hne =>
        constructor
        · intro h
          obtain rfl := Except.ok.inj h
          exact ⟨hsid, q, hq, hne, rfl, rfl, rfl, rfl⟩
        · rintro ⟨-, p, hp, -, hyb, hisk, hmac, hexpected⟩
          obtain rfl : q = p := Except.ok.inj (hq.symm.trans hp)
          obtain ⟨yb, macHost, isk, expectedPeer⟩ := host
          dsimp only at hyb hisk hmac hexpected
          rw [hmac, hexpected, hisk, hyb]

/-! ### Foreign MACs -/

/-- The peer does not accept a MAC that a host computed for another transcript, in this exchange or
in any other one. -/
theorem finish_rejects_foreign (hideal : prim.Ideal)
    {peer : PeerHandshake prim.order} {yb : Bytes} {result : PeerResult}
    {host : HostHandshake} {w sid ya : Bytes} {binding : CpaceBinding} {y : Scalar prim.order}
    (hsid : peer.sid.length = sidBytes) (hya : peer.ya.length = pointBytes)
    (hhost : hostRespond prim w binding sid ya y = .ok host)
    (hresult : peer.finish prim yb host.macHost = .ok result)
    (hforeign : (sid, ya, host.yb) ≠ (peer.sid, peer.ya, yb)) : result.hostConfirmed = false := by
  obtain ⟨hsid', p, hp, -, -, -, hmac, -⟩ := (hostRespond_eq_ok prim).mp hhost
  obtain ⟨-, -, -, -, -, hconfirmed⟩ := (finish_eq_ok prim).mp hresult
  rw [hconfirmed]
  refine constantTimeEqual_eq_false fun hsame => hforeign ?_
  rw [hmac] at hsame
  obtain ⟨-, -, hs, ha, hb⟩ := macFor_injective prim hideal hsid' hsid (length_of_decodeShare prim hp) hya
    hsame
  rw [hs, ha, hb]

/-- The host does not accept a MAC that a peer computed for another transcript. -/
theorem verifyPeer_rejects_foreign (hideal : prim.Ideal) {host : HostHandshake} {w sid ya : Bytes}
    {binding : CpaceBinding} {y : Scalar prim.order} {peer : PeerHandshake prim.order}
    {yb macHost : Bytes} {result : PeerResult}
    (hhost : hostRespond prim w binding sid ya y = .ok host)
    (hsid : peer.sid.length = sidBytes) (hya : peer.ya.length = pointBytes)
    (hresult : peer.finish prim yb macHost = .ok result)
    (hforeign : (peer.sid, peer.ya, yb) ≠ (sid, ya, host.yb)) :
    host.verifyPeer result.macPeer = false := by
  obtain ⟨hsid', p, hp, -, -, -, -, hexpected⟩ := (hostRespond_eq_ok prim).mp hhost
  obtain ⟨-, -, -, -, hmac, -⟩ := (finish_eq_ok prim).mp hresult
  refine constantTimeEqual_eq_false fun hsame => hforeign ?_
  rw [hexpected, hmac] at hsame
  obtain ⟨-, -, hs, ha, hb⟩ := macFor_injective prim hideal hsid hsid' hya (length_of_decodeShare prim hp)
    hsame
  rw [hs, ha, hb]

/-! ### The exchange -/

/-- **Confirmation exactly on agreement.**  A peer and a host exchange their shares and MACs.  If
they have the same password key and binding, both confirm, they have the same key, and neither
accepts any other MAC; if not, neither confirms.  And whatever shares are delivered, neither accepts
a MAC that the other side, in this exchange or any other, computed for another transcript. -/
theorem cpace_confirms (hideal : prim.Ideal) {sid : Bytes} (hsid : sid.length = sidBytes)
    (w w' : Bytes) (b b' : CpaceBinding) (x y : Scalar prim.order) (hcurve : CollisionFree prim w w' b b' sid) :
    ∃ peer host result, peerBegin prim w b sid x = .ok peer ∧
      hostRespond prim w' b' sid peer.ya y = .ok host ∧
      peer.finish prim host.yb host.macHost = .ok result ∧
      (w = w' ∧ b = b' → result.hostConfirmed = true ∧ host.verifyPeer result.macPeer = true ∧
        result.isk = host.isk ∧
        (∀ mac r, mac ≠ host.macHost → peer.finish prim host.yb mac = .ok r →
          r.hostConfirmed = false) ∧
        ∀ mac, mac ≠ result.macPeer → host.verifyPeer mac = false) ∧
      (¬ (w = w' ∧ b = b') →
        result.hostConfirmed = false ∧ host.verifyPeer result.macPeer = false) ∧
      (∀ yb₁ w₁ b₁ sid₁ ya₁ y₁ host₁ r, hostRespond prim w₁ b₁ sid₁ ya₁ y₁ = .ok host₁ →
        peer.finish prim yb₁ host₁.macHost = .ok r →
        (sid₁, ya₁, host₁.yb) ≠ (sid, peer.ya, yb₁) → r.hostConfirmed = false) ∧
      ∀ ya₁ host₁ w₁ b₁ sid₁ x₁ peer₁ yb₁ mac r, hostRespond prim w' b' sid ya₁ y = .ok host₁ →
        peerBegin prim w₁ b₁ sid₁ x₁ = .ok peer₁ → peer₁.finish prim yb₁ mac = .ok r →
        (sid₁, peer₁.ya, yb₁) ≠ (sid, ya₁, host₁.yb) → host₁.verifyPeer r.macPeer = false := by
  let g := calculateGenerator prim w b sid
  let g' := calculateGenerator prim w' b' sid
  have hg : x.1 • g ≠ 0 := nsmul_ne_zero prim x (generator_ne_zero prim w b sid)
  have hg' : y.1 • g' ≠ 0 := nsmul_ne_zero prim y (generator_ne_zero prim w' b' sid)
  let ya := prim.encode (x.1 • g)
  let yb := prim.encode (y.1 • g')
  let iskPeer := deriveIsk prim sid (prim.encode (x.1 • y.1 • g')) ya [] yb []
  let iskHost := deriveIsk prim sid (prim.encode (y.1 • x.1 • g)) ya [] yb []
  have hpeer : peerBegin prim w b sid x = .ok ⟨sid, x, ya⟩ :=
    (peerBegin_eq_ok prim).mpr ⟨hsid, rfl⟩
  have hhost : hostRespond prim w' b' sid ya y = .ok ⟨yb, macFor prim iskHost .host sid ya yb,
      iskHost, macFor prim iskHost .peer sid ya yb⟩ :=
    (hostRespond_eq_ok prim).mpr ⟨hsid, x.1 • g, decodeShare_encode prim hg _,
      nsmul_ne_zero prim y hg, rfl, rfl, rfl, rfl⟩
  have hfinish : ∀ mac, PeerHandshake.finish prim ⟨sid, x, ya⟩ yb mac = .ok ⟨iskPeer,
      macFor prim iskPeer .peer sid ya yb,
      constantTimeEqual mac (macFor prim iskPeer .host sid ya yb)⟩ := fun mac =>
    (finish_eq_ok prim).mpr ⟨y.1 • g', decodeShare_encode prim hg' _, nsmul_ne_zero prim x hg',
      rfl, rfl, rfl⟩
  have hya : ya.length = pointBytes := prim.length_encode _
  -- the keys agree exactly if the sides do
  have hisk : iskPeer = iskHost ↔ w = w' ∧ b = b' := by
    rw [← generator_eq_iff prim hideal hcurve, ← secret_eq_iff prim x y]
    constructor
    · intro h
      have hk := congrArg prim.decode (deriveIsk_injective prim hideal h)
      rw [prim.decode_encode, prim.decode_encode] at hk
      exact Option.some.inj hk
    · intro h
      show deriveIsk prim sid (prim.encode (x.1 • y.1 • g')) ya [] yb [] = iskHost
      rw [h]
  refine ⟨_, _, _, hpeer, hhost, hfinish _, fun hagree => ?_, fun hdiffer => ?_, ?_, ?_⟩
  · have hkey := hisk.mpr hagree
    refine ⟨?_, ?_, hkey, fun mac r hmac hr => ?_, fun mac hmac => ?_⟩
    · rw [constantTimeEqual_iff, hkey]
    · show constantTimeEqual _ _ = true
      rw [constantTimeEqual_iff, hkey]
    · rw [hfinish mac] at hr
      obtain rfl := Except.ok.inj hr
      rw [hkey]
      exact constantTimeEqual_eq_false hmac
    · rw [hkey] at hmac
      exact constantTimeEqual_eq_false hmac
  · have hkey : iskPeer ≠ iskHost := fun h => hdiffer (hisk.mp h)
    constructor
    · refine constantTimeEqual_eq_false fun h => hkey ?_
      exact (macFor_injective prim hideal hsid hsid hya hya h).1.symm
    · refine constantTimeEqual_eq_false fun h => hkey ?_
      exact (macFor_injective prim hideal hsid hsid hya hya h).1
  · intro yb₁ w₁ b₁ sid₁ ya₁ y₁ host₁ r hhost₁ hr hforeign
    exact finish_rejects_foreign prim hideal hsid hya hhost₁ hr hforeign
  · intro ya₁ host₁ w₁ b₁ sid₁ x₁ peer₁ yb₁ mac r hhost₁ hpeer₁ hr hforeign
    obtain ⟨hsid₁, rfl⟩ := (peerBegin_eq_ok prim).mp hpeer₁
    exact verifyPeer_rejects_foreign prim hideal hhost₁ hsid₁ (prim.length_encode _) hr hforeign

end Protocol

/-! ### A small instance -/

/-- The group of five elements: a point is a byte behind 31 zeros, and hashing adds bytes up. -/
def smallGroup : Primitives (ZMod 5) where
  order := 5
  order_prime := by decide
  card := Nat.card_zmod 5
  encode p := List.replicate 31 0 ++ [UInt8.ofNat p.val]
  decode bytes :=
    let p : ZMod 5 := ((bytes.getD 31 0).toNat : ℕ)
    if List.replicate 31 0 ++ [UInt8.ofNat p.val] = bytes then some p else none
  decode_encode := by decide
  length_encode := by decide
  deriveToCurve msg := (1 + (msg.map UInt8.toNat).sum % 4 : ℕ)
  deriveToCurve_ne_zero msg := by
    have hlt : (msg.map UInt8.toNat).sum % 4 < 4 := Nat.mod_lt _ (by decide)
    generalize (msg.map UInt8.toNat).sum % 4 = n at hlt
    interval_cases n <;> decide
  sha512 := id
  hkdf ikm _ _ := ikm
  hmac key msg := prependLen key ++ msg

theorem smallGroup_ideal : smallGroup.Ideal where
  sha512_injective := Function.injective_id
  hkdf_injective h := h
  hmac_injective := prependLen_append_inj

theorem cpace_confirms_smallGroup :
    ∃ peer host result,
      peerBegin smallGroup [1] ⟨[10, 11, 12, 13], 1⟩ (List.replicate 16 0) ⟨2, by decide⟩ = .ok peer ∧
      hostRespond smallGroup [2] ⟨[10, 11, 12, 13], 1⟩ (List.replicate 16 0) peer.ya
        ⟨3, by decide⟩ = .ok host ∧
      peer.finish smallGroup host.yb host.macHost = .ok result ∧
      result.hostConfirmed = false ∧ host.verifyPeer result.macPeer = false := by
  have hcurve : CollisionFree smallGroup [1] [2] ⟨[10, 11, 12, 13], 1⟩ ⟨[10, 11, 12, 13], 1⟩
      (List.replicate 16 0) := by
    intro h
    exact absurd h (by decide +kernel)
  obtain ⟨peer, host, result, hpeer, hhost, hresult, -, hdiffer, -⟩ :=
    cpace_confirms smallGroup smallGroup_ideal (by decide) [1] [2] ⟨[10, 11, 12, 13], 1⟩ ⟨[10, 11, 12, 13], 1⟩
      ⟨2, by decide⟩ ⟨3, by decide⟩ hcurve
  obtain ⟨hconfirmed, hverified⟩ := hdiffer (by decide)
  exact ⟨peer, host, result, hpeer, hhost, hresult, hconfirmed, hverified⟩

end ScreenSharing.Crypto
