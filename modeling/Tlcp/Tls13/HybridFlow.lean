import Tlcp.Tls13.KeyShare

/-!
# Tlcp.Tls13.HybridFlow

Both ends of an SM2+Kyber768 handshake derive the handshake secret from the
same bytes.

`HybridLaws` has what is assumed of libcrypto: ECDH on SM2 commutes and has a secret
of 32 bytes, and Kyber768 decapsulation inverts encapsulation.  Each function
has one lemma that says how it ends on the bytes of its peer, and `agree` puts
the six of them together in the order of the extension table.
-/

namespace Tlcp.Tls13

open Octets Fallible

variable {X509 Pkey : Type} {lib : Libcrypto X509 Pkey} {env : GroupTable Pkey}
  {s t : ShareConn Pkey}
variable {z share : Bytes} {pk : Buf 1184} {key skey ckey : Pkey} {ct : Buf 1088} {ss : Buf 32}
  {sk : Buf 2400}

/-! ## assumptions -/

/-- ECDH on SM2 and Kyber768 in libcrypto.  `curve` says that a key has the
parameters of SM2, `pair` that it also has a key pair. -/
structure HybridLaws (lib : Libcrypto X509 Pkey) (curve pair : Pkey → Prop) : Prop where
  param : ∃ k, lib.generateParamGroup curveSM2 = some k ∧ curve k
  generated : ∀ rnd k, lib.generatePkeyGroup curveSM2 rnd = some k → pair k
  generate : ∀ k rnd, curve k → ∃ k', lib.generatePkey k rnd = some k' ∧ pair k'
  curve_of_pair : ∀ k, pair k → curve k
  notDh : ∀ k, curve k → lib.isA k "DH" = false
  /-- an uncompressed point -/
  encoded : ∀ k, pair k →
    (lib.encodedPublicKey k).length = 65 ∧ (lib.encodedPublicKey k).head? = some 4
  set : ∀ k a, curve k → pair a →
    ∃ p, lib.setEncodedPublicKey k (lib.encodedPublicKey a) = some p ∧ curve p
  commutes : ∀ k a p k' b q, curve k → pair a → curve k' → pair b →
    lib.setEncodedPublicKey k (lib.encodedPublicKey a) = some p →
    lib.setEncodedPublicKey k' (lib.encodedPublicKey b) = some q →
    ∃ z, lib.derive a q = some z ∧ lib.derive b p = some z ∧ z.length = 32
  kyber : ∀ r pk sk r', lib.kyberKeypair r = some (pk, sk) →
    ∃ ct ss, lib.kyberEnc pk r' = some (ct, ss) ∧ lib.kyberDec sk ct = some ss

/-- SM2 is a usable group, and no KEM. -/
structure GroupTable.Usable (env : GroupTable Pkey) : Prop where
  noKem : env.isKem curveSM2 = some false
  valid : env.valid curveSM2 = true
  allowed : env.allowed curveSM2 = true
  checked : env.checked curveSM2 = true

section

variable {curve pair : Pkey → Prop} (laws : HybridLaws lib curve pair)

include laws

theorem HybridLaws.setEncoded (env : GroupTable Pkey) {k a : Pkey} (hk : curve k) (ha : pair a) :
    ∃ p, lib.setEncodedPublicKey k (lib.encodedPublicKey a) = some p ∧ curve p ∧
      tls13SetEncodedPubKey lib env k (lib.encodedPublicKey a) = some p := by
  obtain ⟨p, hp, hcurve⟩ := laws.set k a hk ha
  obtain ⟨hlen, hhead⟩ := laws.encoded a ha
  refine ⟨p, hp, hcurve, ?_⟩
  unfold tls13SetEncodedPubKey
  rw [laws.notDh k hk]
  simp [hlen, hhead, hp]

/-! ## the ClientHello -/

/-- The two shares of a hybrid client. -/
def hybridShares (share : Bytes) (pk : Buf 1184) : Bytes :=
  putUint 2 curveSM2 ++ (share ++ (putUint 2 kyber768Group ++ (putUint 2 1184 ++ pk.1)))

omit laws in
theorem length_hybridShares : (hybridShares share pk).length = share.length + 1188 + 2 := by
  simp [hybridShares, pk.2]
  omega

omit laws in
/-- What a hybrid client sends. -/
theorem tlsConstructCtosKeyShare_hybrid {rnd : ShareRandom} {ext : Bytes}
    (hhybrid : s.hybrid = true) (hpkey : s.pkey = none)
    (h : (tlsConstructCtosKeyShare lib env rnd).run s = .ok ext t) :
    ∃ key pk sk share, curveSM2 ∈ s.groups ∧ kyber768Group ∈ s.groups ∧
      lib.generatePkeyGroup curveSM2 rnd.ec = some key ∧
      lib.kyberKeypair rnd.kyber = some (pk, sk) ∧
      putPrefixed 2 (lib.encodedPublicKey key) = some share ∧
      putPrefixed 2 (hybridShares share pk) = some ext ∧
      t = { s with pkey := some key, groupId := curveSM2, kyber768CliSk := some sk } := by
  rw [tlsConstructCtosKeyShare, run_get_bind_ok, if_pos hhybrid, run_check_bind_ok,
    run_check_bind_ok] at h
  obtain ⟨_, ⟨hsm2, hkyber⟩, h⟩ := h
  obtain ⟨classical, u, hclassical, h⟩ := run_bind_ok.mp h
  obtain ⟨kyber, v, hkyberShare, h⟩ := run_bind_ok.mp h
  obtain ⟨hext, hv⟩ := run_orThrow_ok.mp h
  subst hv
  rw [addKeyShare] at hclassical
  obtain ⟨key, w, hnew, hclassical⟩ := run_bind_ok.mp hclassical
  rw [keyShareKey, run_get_bind_ok, hpkey] at hnew
  obtain ⟨hkey, hw⟩ := run_orThrow_ok.mp hnew
  subst hw
  rw [run_check_bind_ok, run_orThrow_bind_ok] at hclassical
  obtain ⟨_, share, hshare, hclassical⟩ := hclassical
  rw [run_modify_bind_ok, run_pure_ok] at hclassical
  obtain ⟨hbytes, hu⟩ := hclassical
  subst hbytes hu
  rw [addKeyShareKyber768, run_get_bind_ok, run_check_bind_ok, run_orThrow_bind_ok] at hkyberShare
  obtain ⟨_, ⟨pk, sk⟩, hpair, hkyberShare⟩ := hkyberShare
  rw [run_modify_bind_ok, run_pure_ok] at hkyberShare
  obtain ⟨hbytes, hv⟩ := hkyberShare
  subst hbytes hv
  rw [List.append_assoc] at hext
  exact ⟨key, pk, sk, share, hsm2, hkyber, hkey, hpair, hshare, hext, rfl⟩

omit laws in
/-- A hybrid client names both groups. -/
theorem mem_sentGroups (henv : env.Usable) (hhybrid : s.hybrid = true)
    (hsm2 : curveSM2 ∈ s.groups) (hkyber : kyber768Group ∈ s.groups) :
    curveSM2 ∈ sentGroups env s ∧ kyber768Group ∈ sentGroups env s := by
  simp [sentGroups, hsm2, hkyber, hhybrid, henv.valid, henv.allowed]

omit laws in
theorem checkInList_of_mem {group : Nat} {groups : List Nat} {checkallow : Bool}
    (h : group ∈ groups) (hallow : checkallow = true → env.checked group = true) :
    checkInList env group groups checkallow = true := by
  rw [checkInList, List.any_eq_true]
  refine ⟨group, h, ?_⟩
  cases checkallow with
  | false => simp
  | true => simp [hallow rfl]

/-- The server's part of the switches and groups when a ClientHello of a hybrid
client comes. -/
structure Accepts (s : ShareConn Pkey) : Prop where
  hybrid : s.hybrid = true
  ctxHybrid : s.ctxHybrid = true
  sm2 : curveSM2 ∈ s.groups
  kyber : kyber768Group ∈ s.groups
  peerSm2 : curveSM2 ∈ s.peerGroups
  peerKyber : kyber768Group ∈ s.peerGroups
  groupId : s.groupId = 0
  peerKyber768Pk : s.peerKyber768Pk = none

/-- The client's SM2 share. -/
theorem parseShare_sm2 (henv : env.Usable) (hs : Accepts s)
    (hkey : pair key) :
    ∃ k peer, curve k ∧ curve peer ∧
      lib.setEncodedPublicKey k (lib.encodedPublicKey key) = some peer ∧
      ∀ rest, (parseShare lib env curveSM2 (lib.encodedPublicKey key) rest).run s =
        .ok true { s with peerTmp := some peer, groupId := curveSM2, kexGroup := curveSM2 } := by
  obtain ⟨k, hk, hcurve⟩ := laws.param
  obtain ⟨peer, hset, hpeer, henc⟩ := laws.setEncoded env hcurve hkey
  refine ⟨k, peer, hcurve, hpeer, hset, fun rest => ?_⟩
  have hours : checkInList env curveSM2 s.groups true = true :=
    checkInList_of_mem hs.sm2 fun _ => henv.checked
  have htheirs : checkInList env curveSM2 s.peerGroups false = true :=
    checkInList_of_mem hs.peerSm2 fun h => nomatch h
  rw [parseShare, run_get_bind_ok, run_check_bind_ok, run_check_bind_ok]
  refine ⟨.inl hs.groupId, htheirs, ?_⟩
  rw [if_pos (by simp [hours, henv.allowed, henv.valid]), run_orThrow_bind_ok]
  refine ⟨k, hk, ?_⟩
  rw [run_modify_bind_ok, run_orThrow_bind_ok]
  refine ⟨peer, henc, ?_⟩
  rw [run_modify_bind_ok, run_pure_ok]
  exact ⟨rfl, rfl⟩

omit laws in
/-- The client's Kyber768 share. -/
theorem parseKyberShare_hybrid (hkyber : kyber768Group ∈ s.groups)
    (hpeerKyber : kyber768Group ∈ s.peerGroups) (hnone : s.peerKyber768Pk = none) :
    (parseKyberShare env pk.1).run s = .ok () { s with peerKyber768Pk := some pk } := by
  have hours : checkInList env kyber768Group s.groups false = true :=
    checkInList_of_mem hkyber fun h => Bool.noConfusion h
  have htheirs : checkInList env kyber768Group s.peerGroups false = true :=
    checkInList_of_mem hpeerKyber fun h => Bool.noConfusion h
  rw [parseKyberShare, run_get_bind_ok, run_check_bind_ok, run_check_bind_ok, run_orThrow_bind_ok]
  refine ⟨hnone, ⟨hours, htheirs⟩, pk, dif_pos pk.2, ?_⟩
  rw [run_modify_ok]

omit laws in
/-- One share off the list. -/
theorem parseShares_share {fuel groupId : Nat} {encodedPt rest : Bytes}
    {found foundKyber : Bool} {r : Bool × Bool} (hgroup : groupId < 65536) (hpt : encodedPt ≠ [])
    (hshare : putPrefixed 2 encodedPt = some share)
    (h : (if s.ctxHybrid = true ∧ groupId = kyber768Group then do
        parseKyberShare env encodedPt
        parseShares lib env fuel rest found true
      else if found then parseShares lib env fuel rest found foundKyber
      else do
        let found ← parseShare lib env groupId encodedPt (!rest.isEmpty)
        parseShares lib env fuel rest found foundKyber).run s = .ok r t) :
    (parseShares lib env (fuel + 1) (putUint 2 groupId ++ (share ++ rest)) found
      foundKyber).run s = .ok r t := by
  have hget := getUint_append (w := 2) (n := groupId) (share ++ rest) hgroup
  have hbody := getPrefixed_append rest hshare
  cases hlist : putUint 2 groupId ++ (share ++ rest) with
  | nil =>
    have hlen := congrArg List.length hlist
    simp at hlen
  | cons b bs =>
    rw [hlist] at hget
    rw [parseShares, run_orThrow_bind_ok]
    refine ⟨_, hget, ?_⟩
    rw [run_orThrow_bind_ok]
    refine ⟨_, hbody, ?_⟩
    rw [run_check_bind_ok, run_get_bind_ok]
    exact ⟨hpt, h⟩

/-- The server with both shares of the client. -/
def ShareConn.took (s : ShareConn Pkey) (peer : Pkey) (pk : Buf 1184) : ShareConn Pkey :=
  { s with
    peerTmp := some peer
    groupId := curveSM2
    kexGroup := curveSM2
    peerKyber768Pk := some pk }

/-- The server takes both shares. -/
theorem parseShares_hybrid (henv : env.Usable)
    (hs : Accepts s) (hkey : pair key)
    (hshare : putPrefixed 2 (lib.encodedPublicKey key) = some share) :
    ∃ k peer, curve k ∧ curve peer ∧
      lib.setEncodedPublicKey k (lib.encodedPublicKey key) = some peer ∧
      ∀ fuel, (parseShares lib env (fuel + 2) (hybridShares share pk) false false).run s =
        .ok (true, true) (s.took peer pk) := by
  have hpt : lib.encodedPublicKey key ≠ [] := by
    intro hnil
    have hlen := (laws.encoded key hkey).1
    rw [hnil] at hlen
    contradiction
  have hpk : putPrefixed 2 pk.1 = some (putUint 2 1184 ++ pk.1) := by
    rw [putPrefixed_eq_some_iff, pk.2]
    exact ⟨by decide, rfl⟩
  have hpkNil : pk.1 ≠ [] := by
    intro hnil
    have hlen := pk.2
    rw [hnil] at hlen
    contradiction
  obtain ⟨k, peer, hk, hpeer, hset, hparse⟩ := parseShare_sm2 laws henv hs hkey
  refine ⟨k, peer, hk, hpeer, hset, fun fuel => parseShares_share (by decide) hpt hshare ?_⟩
  rw [if_neg (by simp [kyber768Group, curveSM2]), if_neg (by decide), run_bind_ok]
  refine ⟨true, _, hparse _, ?_⟩
  rw [← List.append_nil (putUint 2 1184 ++ pk.1)]
  refine parseShares_share (by decide) hpkNil hpk ?_
  rw [if_pos ⟨hs.ctxHybrid, rfl⟩, run_bind_ok]
  refine ⟨(), _, parseKyberShare_hybrid hs.kyber hs.peerKyber hs.peerKyber768Pk, ?_⟩
  rw [parseShares, run_pure_ok]
  exact ⟨rfl, rfl⟩

omit laws in
/-- The finaliser has nothing to do. -/
theorem finalKeyShare_took {sent : Bool} (hserver : s.server = true)
    (hhrr : s.helloRetryRequest = .none) (hstateless : s.statelessPending = false)
    (hpeer : s.peerTmp.isSome = true) (hpk : s.peerKyber768Pk.isSome = true) :
    (finalKeyShare env sent).run s = .ok () s := by
  rw [finalKeyShare, run_get_bind_ok, if_pos hserver, run_bind_ok]
  refine ⟨(), s, ?_, ?_⟩
  · rw [finalKeyShareServer, run_get_bind_ok]
    dsimp only
    rw [if_pos hpeer, if_neg (by simp [hstateless]), run_modify_ok, if_neg (by simp [hhrr])]
  · rw [run_get_bind_ok, run_check_ok]
    exact ⟨.inr (.inr (.inr hpk)), rfl⟩

/-- A server on which the handshake has not started, with the hybrid on. -/
structure HybridServer (s : ShareConn Pkey) : Prop where
  server : s.server = true
  hybrid : s.hybrid = true
  ctxHybrid : s.ctxHybrid = true
  helloRetryRequest : s.helloRetryRequest = .none
  groupId : s.groupId = 0
  peerTmp : s.peerTmp = none
  peerKyber768Pk : s.peerKyber768Pk = none
  inputs : s.inputs = []

/-- A ClientHello that a key share is taken from: the server's groups have both,
it is not stateless, and a resumed session does not do without. -/
structure ClientHello.Plain (hello : ClientHello) : Prop where
  sm2 : curveSM2 ∈ hello.groups
  kyber : kyber768Group ∈ hello.groups
  statelessPending : hello.statelessPending = false
  dhe : hello.hit = false ∨ hello.pskKeDhe = true

/-- Another `SSL_CTX` may be attached while the ClientHello is worked on. -/
def ClientHello.attach (hello : ClientHello) (s : ShareConn Pkey) : ShareConn Pkey :=
  { s with ctxHybrid := hello.ctx.getD s.ctxHybrid }

omit laws in
theorem ClientHello.Plain.not_without {hello : ClientHello} (h : hello.Plain) :
    ¬ (hello.hit = true ∧ hello.pskKeDhe = false) := by
  intro ⟨hhit, hnot⟩
  rcases h.dhe with hdhe | hdhe
  · exact absurd (hhit.symm.trans hdhe) (by decide)
  · exact absurd (hnot.symm.trans hdhe) (by decide)

/-- The server accepts the two shares. -/
theorem processClientHello_hybrid {hello : ClientHello}
    {ext : Bytes} (henv : env.Usable) (hs : HybridServer s) (hhello : hello.Plain)
    (hsm2 : curveSM2 ∈ hello.peerGroups) (hkyber : kyber768Group ∈ hello.peerGroups)
    (hkey : pair key) (hshare : putPrefixed 2 (lib.encodedPublicKey key) = some share)
    (hext : putPrefixed 2 (hybridShares share pk) = some ext)
    (hsent : hello.keyShare = some ext) :
    ∃ k peer, curve k ∧ curve peer ∧
      lib.setEncodedPublicKey k (lib.encodedPublicKey key) = some peer ∧
      (processClientHello lib env hello).run s =
        .ok () (hello.attach ((hello.adopt s).took peer pk)) := by
  have haccepts : Accepts (hello.adopt s) :=
    ⟨hs.hybrid, hs.ctxHybrid, hhello.sm2, hhello.kyber, hsm2, hkyber, hs.groupId, hs.peerKyber768Pk⟩
  have hlist := getPrefixed_append [] hext
  rw [List.append_nil] at hlist
  obtain ⟨k, peer, hk, hpeer, hset, hshares⟩ := parseShares_hybrid laws henv haccepts
    hkey hshare
  refine ⟨k, peer, hk, hpeer, hset, ?_⟩
  have hparse : (tlsParseCtosKeyShare lib env ext).run (hello.adopt s) =
      .ok () ((hello.adopt s).took peer pk) := by
    rw [tlsParseCtosKeyShare, run_get_bind_ok, run_onlyIf_ok]
    refine .inl ⟨hhello.not_without, ?_⟩
    rw [run_check_bind_ok, run_orThrow_bind_ok]
    refine ⟨by simp [ClientHello.adopt, hs.peerTmp], _, hlist, ?_⟩
    rw [run_check_bind_ok, run_check_bind_ok, run_check_bind_ok, run_bind_ok]
    refine ⟨rfl, List.ne_nil_of_mem haccepts.peerSm2, .inl hs.groupId, (true, true),
      (hello.adopt s).took peer pk, ?_, ?_⟩
    · rw [length_hybridShares]
      exact hshares _
    · rw [run_get_bind_ok, run_check_ok]
      exact ⟨.inr ⟨rfl, rfl, rfl⟩, rfl⟩
  rw [processClientHello, run_modify_bind_ok, hsent, run_bind_ok]
  refine ⟨(), _, hparse, ?_⟩
  rw [run_modify_bind_ok]
  exact finalKeyShare_took (s := hello.attach ((hello.adopt s).took peer pk)) hs.server
    hs.helloRetryRequest hhello.statelessPending rfl rfl

/-! ## the ServerHello -/

/-- The ECDH secret is parked. -/
def ShareConn.parked (s : ShareConn Pkey) (z : Bytes) : ShareConn Pkey :=
  { s with pms := some z, ecdhSecrets := s.ecdhSecrets ++ [z] }

/-- The handshake secret is derived from both secrets. -/
def ShareConn.combined (s : ShareConn Pkey) (z k : Bytes) : ShareConn Pkey := { s with
    pms := none
    kyberSecrets := s.kyberSecrets ++ [k]
    inputs := s.inputs ++ [some (z ++ k)] }

omit laws in
theorem sslDerive_parked {privkey pubkey : Pkey}
    (hz : lib.derive privkey pubkey = some z) :
    (sslDerive lib privkey pubkey false).run s = .ok () (s.parked z) := by
  rw [sslDerive, run_orThrow_bind_ok]
  exact ⟨z, hz, rfl⟩

omit laws in
theorem combine_combined {α : Type} {x : ShareStep Pkey α} {a : α} {k : Buf 32}
    (hpms : s.pms = some z) (hz : z ≠ []) (hx : x.run (s.combined z k.1) = .ok a t) :
    (do
      modify fun s => { s with kyberSecrets := s.kyberSecrets ++ [k.1] }
      sslSm2Kyber768Tls13CombineAndGensecret k
      x : ShareStep Pkey α).run s = .ok a t := by
  rw [run_modify_bind_ok, run_bind_ok]
  refine ⟨(), s.combined z k.1, ?_, hx⟩
  rw [sslSm2Kyber768Tls13CombineAndGensecret, run_get_bind_ok, run_orThrow_bind_ok]
  refine ⟨z, hpms, ?_⟩
  rw [run_check_bind_ok, run_modify_bind_ok]
  exact ⟨hz, rfl⟩

/-- A server that has both shares, and can use them. -/
structure TookBoth (s : ShareConn Pkey) (ckey : Pkey) (pk : Buf 1184) : Prop where
  server : s.server = true
  hybrid : s.hybrid = true
  helloRetryRequest : s.helloRetryRequest = .none
  dhe : ¬ (s.hit = true ∧ s.pskKeDhe = false)
  groupId : s.groupId = curveSM2
  peerTmp : s.peerTmp = some ckey
  peerKyber768Pk : s.peerKyber768Pk = some pk

theorem putPrefixed_encoded (hkey : pair key) :
    ∃ share, putPrefixed 2 (lib.encodedPublicKey key) = some share ∧
      lib.encodedPublicKey key ≠ [] := by
  have hlen := (laws.encoded key hkey).1
  refine ⟨_, putPrefixed_eq_some_iff.mpr ⟨by rw [hlen]; decide, rfl⟩, ?_⟩
  intro hnil
  rw [hnil] at hlen
  contradiction

omit laws in
/-- The server's key_share: the ECDH secret is parked. -/
theorem tlsConstructStocKeyShare_hybrid {rnd : Bytes}
    (henv : env.Usable) (hs : TookBoth s ckey pk)
    (hskey : lib.generatePkey ckey rnd = some skey) (hpt : lib.encodedPublicKey skey ≠ [])
    (hshare : putPrefixed 2 (lib.encodedPublicKey skey) = some share)
    (hz : lib.derive skey ckey = some z) :
    (tlsConstructStocKeyShare lib env rnd).run s =
      .ok (some (putUint 2 curveSM2 ++ share)) ({ s with pkey := some skey }.parked z) := by
  have hpending : s.kyberPending = true := by
    simp [ShareConn.kyberPending, hs.hybrid, hs.peerKyber768Pk]
  have hown : (serverShare lib rnd false ckey).run s =
      .ok share ({ s with pkey := some skey }.parked z) := by
    rw [serverShare, run_get_bind_ok, if_neg (by decide), run_orThrow_bind_ok]
    refine ⟨skey, hskey, ?_⟩
    rw [run_check_bind_ok, run_orThrow_bind_ok]
    refine ⟨hpt, share, hshare, ?_⟩
    rw [run_modify_bind_ok, run_bind_ok, hpending]
    exact ⟨(), _, sslDerive_parked hz, run_pure_ok.mpr ⟨rfl, rfl⟩⟩
  rw [tlsConstructStocKeyShare, run_get_bind_ok, if_neg (by simp [hs.helloRetryRequest])]
  split
  · next hnone =>
    rw [hs.peerTmp] at hnone
    contradiction
  · next key hkey =>
    rw [hs.peerTmp] at hkey
    injection hkey with hkey
    subst hkey
    rw [if_neg hs.dhe, run_orThrow_bind_ok]
    refine ⟨false, by rw [hs.groupId, henv.noKem], ?_⟩
    rw [run_bind_ok]
    refine ⟨share, _, hown, ?_⟩
    rw [run_modify_bind_ok, run_pure_ok, hs.groupId]
    refine ⟨rfl, ?_⟩
    simp [ShareConn.kyberPending, ShareConn.parked, hs.hybrid, hs.peerKyber768Pk]

omit laws in
/-- The server's ciphertext: the handshake secret is derived. -/
theorem tlsConstructStocKyber768Ciphertext_hybrid {rnd : Bytes}
    (hs : TookBoth s ckey pk) (hpms : s.pms = some z) (hz : z ≠ [])
    (hct : lib.kyberEnc pk rnd = some (ct, ss)) :
    (tlsConstructStocKyber768Ciphertext lib rnd).run s =
      .ok (some ct.1) { s.combined z ss.1 with didKex := true } := by
  rw [tlsConstructStocKyber768Ciphertext, run_get_bind_ok,
    if_neg (by simp [hs.hybrid, hs.server, hs.helloRetryRequest])]
  split
  · next pk' _ hpk _ =>
    rw [hs.peerKyber768Pk] at hpk
    injection hpk with hpk
    subst hpk
    rw [run_orThrow_bind_ok]
    refine ⟨(ct, ss), hct, combine_combined hpms hz ?_⟩
    rw [run_modify_bind_ok, run_pure_ok]
    exact ⟨rfl, rfl⟩
  · next hmissing => exact (hmissing pk z hs.peerKyber768Pk hpms).elim

/-- The two extensions of the server. -/
theorem constructServerHello_hybrid {rnd : ServerRandom}
    (henv : env.Usable) (hs : TookBoth s ckey pk)
    (hskey : lib.generatePkey ckey rnd.share = some skey) (hpair : pair skey)
    (hz : lib.derive skey ckey = some z) (hlen : z ≠ [])
    (hct : lib.kyberEnc pk rnd.kyber = some (ct, ss)) :
    ∃ share, putPrefixed 2 (lib.encodedPublicKey skey) = some share ∧
      (constructServerHello lib env rnd).run s = .ok ⟨some (putUint 2 curveSM2 ++ share), some ct.1⟩
          { ({ s with pkey := some skey }.parked z).combined z ss.1 with didKex := true } := by
  obtain ⟨share, hshare, hpt⟩ := putPrefixed_encoded laws hpair
  refine ⟨share, hshare, ?_⟩
  have hparked : TookBoth ({ s with pkey := some skey }.parked z) ckey pk :=
    ⟨hs.server, hs.hybrid, hs.helloRetryRequest, hs.dhe, hs.groupId, hs.peerTmp, hs.peerKyber768Pk⟩
  rw [constructServerHello, run_bind_ok]
  refine ⟨_, _, tlsConstructStocKeyShare_hybrid henv hs hskey hpt hshare hz, ?_⟩
  rw [run_bind_ok]
  refine ⟨_, _, tlsConstructStocKyber768Ciphertext_hybrid hparked rfl hlen hct, ?_⟩
  rw [run_pure_ok]
  exact ⟨rfl, rfl⟩

/-- A client that has sent both shares. -/
structure SentBoth (s : ShareConn Pkey) (key : Pkey) (sk : Buf 2400) : Prop where
  server : s.server = false
  hybrid : s.hybrid = true
  groupId : s.groupId = curveSM2
  pkey : s.pkey = some key
  peerTmp : s.peerTmp = none
  kyber768CliSk : s.kyber768CliSk = some sk

omit laws in
/-- The client takes the server's share: the ECDH secret is parked. -/
theorem tlsParseStocKeyShare_hybrid {peer : Pkey}
    (henv : env.Usable) (hs : SentBoth s key sk)
    (hshare : putPrefixed 2 (lib.encodedPublicKey skey) = some share)
    (hpt : lib.encodedPublicKey skey ≠ [])
    (hpeer : tls13SetEncodedPubKey lib env key (lib.encodedPublicKey skey) = some peer)
    (hz : lib.derive key peer = some z) :
    (tlsParseStocKeyShare lib env (putUint 2 curveSM2 ++ share)).run s =
      .ok () { s.parked z with kexGroup := curveSM2, peerTmp := some peer } := by
  have hbody := getPrefixed_append [] hshare
  rw [List.append_nil] at hbody
  rw [tlsParseStocKeyShare, run_get_bind_ok, run_orThrow_bind_ok]
  refine ⟨key, hs.pkey, ?_⟩
  rw [run_check_bind_ok, run_orThrow_bind_ok]
  refine ⟨by rw [hs.peerTmp]; rfl, (curveSM2, share), getUint_append _ (by decide), ?_⟩
  rw [run_check_bind_ok, run_modify_bind_ok, run_orThrow_bind_ok]
  refine ⟨hs.groupId.symm, false, henv.noKem, ?_⟩
  rw [run_orThrow_bind_ok]
  refine ⟨_, hbody, ?_⟩
  rw [run_check_bind_ok, run_bind_ok]
  refine ⟨⟨rfl, hpt⟩, (), { s.parked z with kexGroup := curveSM2, peerTmp := some peer }, ?_, ?_⟩
  · rw [clientShare, run_get_bind_ok, if_neg (by decide), run_orThrow_bind_ok]
    refine ⟨peer, hpeer, ?_⟩
    rw [run_bind_ok]
    refine ⟨(), { s.parked z with kexGroup := curveSM2 }, ?_, rfl⟩
    have hgensecret : (!s.hybrid) = false := by rw [hs.hybrid]; rfl
    rw [hgensecret]
    exact sslDerive_parked hz
  · rw [run_modify_ok]
    simp [ShareConn.parked, hs.hybrid]

omit laws in
/-- The client takes the server's ciphertext: the handshake secret is
derived. -/
theorem tlsParseStocKyber768Ciphertext_hybrid
    (hhybrid : s.hybrid = true) (hsk : s.kyber768CliSk = some sk)
    (hpms : s.pms = some z) (hz : z ≠ []) (hss : lib.kyberDec sk ct = some ss) :
    (tlsParseStocKyber768Ciphertext lib ct.1).run s =
      .ok () { s.combined z ss.1 with didKex := true } := by
  rw [tlsParseStocKyber768Ciphertext, run_get_bind_ok, run_onlyIf_ok]
  refine .inl ⟨hhybrid, ?_⟩
  rw [run_orThrow_bind_ok]
  refine ⟨ct, dif_pos ct.2, ?_⟩
  rw [run_orThrow_bind_ok]
  refine ⟨sk, hsk, ?_⟩
  rw [run_check_bind_ok, run_orThrow_bind_ok]
  refine ⟨by rw [hpms]; rfl, ss, hss, ?_⟩
  exact combine_combined hpms hz rfl

omit laws in
/-- The finalisers have nothing to do. -/
theorem finals_client (hclient : s.server = false) : (do
      finalKeyShare env true
      finalTls13Kyber768Ciphertext true : ShareStep Pkey Unit).run s = .ok () s := by
  rw [run_bind_ok]
  refine ⟨(), s, ?_, ?_⟩
  · rw [finalKeyShare, run_get_bind_ok, if_neg (by simp [hclient]), run_check_bind_ok]
    exact ⟨.inl rfl, rfl⟩
  · rw [finalTls13Kyber768Ciphertext, run_get_bind_ok, run_check_ok]
    exact ⟨.inr (.inr rfl), rfl⟩

omit laws in
/-- The client accepts the two extensions. -/
theorem processServerHello_hybrid (hit : Bool) {peer : Pkey}
    (henv : env.Usable) (hs : SentBoth s key sk)
    (hshare : putPrefixed 2 (lib.encodedPublicKey skey) = some share)
    (hpt : lib.encodedPublicKey skey ≠ [])
    (hpeer : tls13SetEncodedPubKey lib env key (lib.encodedPublicKey skey) = some peer)
    (hz : lib.derive key peer = some z) (hlen : z ≠ []) (hss : lib.kyberDec sk ct = some ss) :
    (processServerHello lib env hit ⟨some (putUint 2 curveSM2 ++ share), some ct.1⟩).run s =
      .ok () { (s.parked z).combined z ss.1 with
        hit := hit, kexGroup := curveSM2, peerTmp := some peer, didKex := true } := by
  have hhit : SentBoth { s with hit := hit } key sk :=
    ⟨hs.server, hs.hybrid, hs.groupId, hs.pkey, hs.peerTmp, hs.kyber768CliSk⟩
  rw [processServerHello, run_modify_bind_ok, run_bind_ok]
  refine ⟨(), _, tlsParseStocKeyShare_hybrid henv hhit hshare hpt hpeer hz, ?_⟩
  rw [run_bind_ok]
  refine ⟨(), _, tlsParseStocKyber768Ciphertext_hybrid (z := z) hs.hybrid hs.kyber768CliSk rfl hlen
    hss, ?_⟩
  exact finals_client hs.server

/-! ## both ends -/

/-- A client on which the handshake has not started, with the hybrid on. -/
structure HybridClient (s : ShareConn Pkey) : Prop where
  server : s.server = false
  hybrid : s.hybrid = true
  pkey : s.pkey = none
  peerTmp : s.peerTmp = none
  inputs : s.inputs = []

end

/-- **Hybrid agreement.** Every key_share that a hybrid client constructs is
accepted by a hybrid server whose groups have SM2 and Kyber768, the client
accepts the server's two extensions, and both ends have derived the handshake
secret from the same 64 bytes, an ECDH secret and a Kyber768 secret. -/
theorem hybrid_agree {cenv senv : GroupTable Pkey} {curve pair : Pkey → Prop}
    {client client' server : ShareConn Pkey} {rnd : ShareRandom} {ext : Bytes}
    {hello : ClientHello} (laws : HybridLaws lib curve pair) (hcenv : cenv.Usable) (hsenv : senv.Usable)
    (hclient : HybridClient client) (hserver : HybridServer server)
    (hbuilt : (tlsConstructCtosKeyShare lib cenv rnd).run client = .ok ext client')
    (hsent : hello.keyShare = some ext) (hgroups : hello.peerGroups = sentGroups cenv client)
    (hhello : hello.Plain) (srnd : ServerRandom) (hit : Bool) :
    ∃ server₁ sh server₂ client₂ z k,
      (processClientHello lib senv hello).run server = .ok () server₁ ∧
      (constructServerHello lib senv srnd).run server₁ = .ok sh server₂ ∧
      sh.keyShare.isSome = true ∧ sh.kyber768Ciphertext.isSome = true ∧
      (processServerHello lib cenv hit sh).run client' = .ok () client₂ ∧
      z ∈ server₂.ecdhSecrets ∧ z ∈ client₂.ecdhSecrets ∧
      k ∈ server₂.kyberSecrets ∧ k ∈ client₂.kyberSecrets ∧
      server₂.inputs = [some (z ++ k)] ∧ client₂.inputs = [some (z ++ k)] ∧
      (z ++ k).length = 64 := by
  obtain ⟨key, pk, sk, share, hsm2, hkyber, hkey, hpair, hshare, hext, ht⟩ :=
    tlsConstructCtosKeyShare_hybrid hclient.hybrid hclient.pkey hbuilt
  subst ht
  have hkeyPair := laws.generated _ _ hkey
  obtain ⟨hpeerSm2, hpeerKyber⟩ := mem_sentGroups hcenv hclient.hybrid hsm2 hkyber
  rw [← hgroups] at hpeerSm2 hpeerKyber
  obtain ⟨k₁, ckey, hk₁, hckey, hset₁, hclientHello⟩ := processClientHello_hybrid laws hsenv hserver
    hhello hpeerSm2 hpeerKyber hkeyPair hshare hext hsent
  obtain ⟨skey, hskey, hskeyPair⟩ := laws.generate ckey srnd.share hckey
  obtain ⟨speer, hset₂, _, henc⟩ := laws.setEncoded cenv (laws.curve_of_pair key hkeyPair) hskeyPair
  obtain ⟨z, hz₁, hz₂, hlen⟩ := laws.commutes _ _ _ _ _ _ hk₁ hkeyPair
    (laws.curve_of_pair key hkeyPair) hskeyPair hset₁ hset₂
  obtain ⟨ct, ss, hct, hss⟩ := laws.kyber _ _ _ srnd.kyber hpair
  have hz : z ≠ [] := List.ne_nil_of_length_eq_add_one hlen
  have htook : TookBoth (hello.attach ((hello.adopt server).took ckey pk)) ckey pk :=
    ⟨hserver.server, hserver.hybrid, hserver.helloRetryRequest, hhello.not_without, rfl, rfl, rfl⟩
  obtain ⟨sshare, hsshare, hserverHello⟩ :=
    constructServerHello_hybrid laws hsenv htook hskey hskeyPair hz₂ hz hct
  obtain ⟨_, _, hpt⟩ := putPrefixed_encoded laws hskeyPair
  have hsentBoth : SentBoth { client with
      pkey := some key, groupId := curveSM2, kyber768CliSk := some sk } key sk :=
    ⟨hclient.server, hclient.hybrid, rfl, rfl, hclient.peerTmp, rfl⟩
  have hdone := processServerHello_hybrid hit hcenv hsentBoth hsshare hpt henc hz₁ hz hss
  have hserverInputs : server.inputs ++ [some (z ++ ss.1)] = [some (z ++ ss.1)] := by
    rw [hserver.inputs, List.nil_append]
  have hclientInputs : client.inputs ++ [some (z ++ ss.1)] = [some (z ++ ss.1)] := by
    rw [hclient.inputs, List.nil_append]
  have hlast : ∀ (xs : List Bytes) (x : Bytes), x ∈ xs ++ [x] := fun _ _ =>
    List.mem_append_right _ (List.mem_singleton_self _)
  refine ⟨_, _, _, _, z, ss.1, hclientHello, hserverHello, rfl, rfl, hdone, hlast _ _, hlast _ _,
    hlast _ _, hlast _ _, hserverInputs, hclientInputs, ?_⟩
  rw [List.length_append, hlen, ss.2]

/-! ## a plain handshake -/

/-- 65 bytes of a point. -/
def plainPoint (rnd : Bytes) : Bytes := 4 :: (rnd ++ List.replicate 64 0).take 64

/-- `Libcrypto.plain`, with points of 65 bytes and an ECDH secret of 32. -/
def Libcrypto.points : Libcrypto Bytes (String × Bytes) := { Libcrypto.plain with
    generatePkeyGroup := fun _ rnd => some ("SM2", plainPoint rnd)
    generatePkey := fun _ rnd => some ("SM2", plainPoint rnd)
    derive := fun a b => some ((List.zipWith (· + ·) a.2 b.2).take 32) }

/-- A key pair in `Libcrypto.points`. -/
def PlainPair (k : String × Bytes) : Prop := k.1 = "SM2" ∧ k.2.length = 65 ∧ k.2.head? = some 4

theorem plainPair_point (rnd : Bytes) : PlainPair ("SM2", plainPoint rnd) := by
  refine ⟨rfl, ?_, rfl⟩
  simp [plainPoint]

theorem Libcrypto.points_laws : HybridLaws Libcrypto.points (fun k => k.1 = "SM2") PlainPair where
  param := ⟨("SM2", []), rfl, rfl⟩
  generated := by
    intro rnd k hk
    injection hk with hk
    subst hk
    exact plainPair_point rnd
  generate := fun _ rnd _ => ⟨_, rfl, plainPair_point rnd⟩
  curve_of_pair := fun _ h => h.1
  notDh := by
    intro k hk
    simp [Libcrypto.points, Libcrypto.plain, hk]
  encoded := fun _ h => h.2
  set := fun _ _ _ _ => ⟨_, rfl, rfl⟩
  commutes := by
    intro k a p k' b q _ ha _ hb hp hq
    injection hp with hp
    injection hq with hq
    subst hp hq
    refine ⟨_, rfl, ?_, ?_⟩
    · simp only [Libcrypto.points, Libcrypto.plain]
      rw [List.zipWith_comm_of_comm (fun x y => UInt8.add_comm x y)]
    · have hlen : (Libcrypto.points.encodedPublicKey b).length = 65 := hb.2.1
      simp [ha.2.1, hlen]
  kyber := fun _ _ _ _ _ => ⟨_, _, rfl, rfl⟩

theorem GroupTable.plain_usable : GroupTable.plain.Usable := ⟨rfl, rfl, rfl, rfl⟩

/-- A client and a server with the hybrid on. -/
def plainHybrid (server : Bool) : ShareConn (String × Bytes) where
  server := server
  hybrid := true
  ctxHybrid := true
  groups := [curveSM2, kyber768Group]

/-- The key_share of the client. -/
def plainKeyShare : Option Bytes :=
  match (tlsConstructCtosKeyShare Libcrypto.points .plain {}).run (plainHybrid false) with
  | .ok ext _ => some ext
  | .error _ _ => none

/-- The client's hello at a server with the given groups. -/
def plainClientHello (groups : List Nat) (keyShare : Option Bytes) : ClientHello where
  groups := groups
  peerGroups := sentGroups .plain (plainHybrid false)
  keyShare := keyShare

theorem plainClientHello_plain (keyShare : Option Bytes) :
    (plainClientHello [curveSM2, kyber768Group] keyShare).Plain := by
  refine ⟨?_, ?_, rfl, .inl rfl⟩
  · simp [plainClientHello]
  · simp [plainClientHello]

theorem plainKeyShare_built : ∃ ext t, plainKeyShare = some ext ∧
    (tlsConstructCtosKeyShare Libcrypto.points .plain {}).run (plainHybrid false) = .ok ext t := by
  have hsome : plainKeyShare.isSome = true := by decide +kernel
  obtain ⟨ext, hext⟩ := Option.isSome_iff_exists.mp hsome
  refine ⟨ext, ?_⟩
  unfold plainKeyShare at hext ⊢
  split at hext
  · next ext' t hrun =>
    injection hext with hext
    subst hext
    exact ⟨t, rfl, hrun⟩
  · exact nomatch hext

theorem hybrid_agree_plain : ∃ ext server₁ server₂ sh z k, plainKeyShare = some ext ∧
    (processClientHello Libcrypto.points .plain
      (plainClientHello [curveSM2, kyber768Group] (some ext))).run (plainHybrid true) =
        .ok () server₁ ∧
    (constructServerHello Libcrypto.points .plain {}).run server₁ = .ok sh server₂ ∧
    server₂.inputs = [some (z ++ k)] ∧ (z ++ k).length = 64 := by
  obtain ⟨ext, client, hext, hbuilt⟩ := plainKeyShare_built
  obtain ⟨server₁, sh, server₂, _, z, k, h₁, h₂, _, _, _, _, _, _, _, hinputs, _, hlen⟩ :=
    hybrid_agree Libcrypto.points_laws GroupTable.plain_usable GroupTable.plain_usable
      ⟨rfl, rfl, rfl, rfl, rfl⟩ (⟨rfl, rfl, rfl, rfl, rfl, rfl, rfl, rfl⟩ : HybridServer
        (plainHybrid true)) hbuilt (rfl : (plainClientHello [curveSM2, kyber768Group]
        (some ext)).keyShare = some ext) rfl (plainClientHello_plain _) {} false
  exact ⟨ext, server₁, server₂, sh, z, k, hext, h₁, h₂, hinputs, hlen⟩

/-- How a ClientHello ends. -/
def fatalOf {α : Type} : EStateM.Result Fatal (ShareConn (String × Bytes)) α → Option Fatal
  | .ok _ _ => none
  | .error e _ => some e

/-- A hybrid server without Kyber768 among its groups rejects the shares. -/
theorem hybrid_reject : HybridServer (plainHybrid true) ∧ ∃ ext client,
    (tlsConstructCtosKeyShare Libcrypto.points .plain {}).run (plainHybrid false) = .ok ext client ∧
    fatalOf ((processClientHello Libcrypto.points .plain
      (plainClientHello [curveSM2] (some ext))).run (plainHybrid true)) =
        some ⟨.illegalParameter, .badKeyShare⟩ := by
  obtain ⟨ext, client, hext, hbuilt⟩ := plainKeyShare_built
  refine ⟨⟨rfl, rfl, rfl, rfl, rfl, rfl, rfl, rfl⟩, ext, client, hbuilt, ?_⟩
  rw [← hext]
  decide +kernel

end Tlcp.Tls13
