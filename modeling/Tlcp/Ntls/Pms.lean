import Tlcp.Ntls.KexSecrets

/-!
# Tlcp.Ntls.Pms

The life of `s3.tmp.pms`.

The field holds four kinds of things in turn.  A server of a hybrid suite
parks its secret key there between ServerKeyExchange and ClientKeyExchange, a
client the public key that it was sent; `ssl_derive_ntls` writes the bare ECDH
secret; and in the end it holds the premaster secret.  Here the field is typed
by what was put in it, and the functions of the key exchange are taken apart
where they write it, so that every exit, also a failing one, says what it
leaves there.

A connection goes through its key exchanges in the order of the state
machine: ServerKeyExchange, ClientKeyExchange and, on the client, the work
behind it.
-/

namespace Tlcp

variable {kinds : KexSuite → Phase → List Kind}

/-- The suites that park a key in `s3.tmp.pms`. -/
def KexSuite.parks : KexSuite → Bool
  | .ecckyber | .ecdhekyber => true
  | _ => false

namespace Pms

open Octets Fallible

variable {X509 Pkey α β : Type} (lib : Libcrypto X509 Pkey)

/-! ## the field -/

/-- What `s3.tmp.pms` points to. -/
inductive Parked where
  | empty
  | serverSecretKey (sk : Bytes)
  | peerPublicKey (pk : Bytes)
  | ecdhSecret (ss : Bytes)
  | premaster (pms : Bytes)
  deriving DecidableEq, Repr

/-- The bytes that code which reads the field sees. -/
def Parked.bytes : Parked → Option Bytes
  | .empty => none
  | .serverSecretKey bs | .peerPublicKey bs | .ecdhSecret bs | .premaster bs => some bs

/-- `OPENSSL_cleanse` -/
def Parked.cleanse : Parked → Parked
  | .empty => .empty
  | .serverSecretKey bs => .serverSecretKey (List.replicate bs.length 0)
  | .peerPublicKey bs => .peerPublicKey (List.replicate bs.length 0)
  | .ecdhSecret bs => .ecdhSecret (List.replicate bs.length 0)
  | .premaster bs => .premaster (List.replicate bs.length 0)

/-- The connection object as the functions of the key exchange see it. -/
def withPms (s : SSL X509 Pkey) (p : Parked) : SSL X509 Pkey :=
  { s with s3.tmp.kex.pms := p.bytes }

/-- Code that works on the field; an error keeps what it left there. -/
abbrev Parking (α : Type) := EStateM Fatal Parked α

/-- Code that parks something between two parts, each of which may fail. -/
def parkBetween (parks : Bool) (first : Parked → Except Fatal α) (park : α → Parked)
    (second : α → Except Fatal β) : Parking β := do
  let p ← get
  let a ← lift (first p)
  onlyIf parks (set (park a))
  lift (second a)

/-! ## the server -/

/-- `tls_construct_server_key_exchange_ntls`: the secret key is parked when the
parameters are written, before they are signed. -/
def constructSke (k : KexSuite) (rnd : SkeRandom) (s : SSL X509 Pkey) : Parking Bytes :=
  parkBetween k.parks
    (fun p => constructSkeParams lib rnd (withPms s p))
    (fun r => .serverSecretKey (r.kex.pms.getD []))
    (fun r => do
      let sig ← skeSignature lib rnd s r.params
      pure (r.params ++ sig))

/-- The first part of `tls_process_cke_ecdhekyber_ntls`, up to
`ssl_derive_ntls`: the saved secret key, the ECDH secret, and the rest of the
message. -/
def ckeEcdh (s : SSL X509 Pkey) (pkt : Bytes) : Except Fatal (Bytes × Bytes × Bytes) := do
  require (pkt ≠ []) .handshakeFailure .missingTmpEcdhKey
  let hybridSk ← orFatal .internalError .internalError s.s3.tmp.kex.pms
  require (hybridSk.length = hybridSkSize) .internalError .internalError
  let (_, pkt) ← orFatal .decodeError .lengthTooShort (splitFront 3 pkt)
  let (point, pkt) ← orFatal .decodeError .lengthMismatch (getPrefixed 1 pkt)
  let skey ← orFatal .internalError .missingTmpEcdhKey s.s3.tmp.kex.pkey
  let ckey ← orFatal .internalError .ecLib (lib.setEncodedPublicKey skey point)
  let ecdheSs ← orFatal .internalError .internalError (lib.derive skey ckey)
  pure (hybridSk, ecdheSs, pkt)

/-- The second part: the Kyber ciphertext and the combined secret. -/
def ckeCombine (hybridSk ecdheSs pkt : Bytes) : Except Fatal Bytes := do
  require (ecdheSs ≠ []) .internalError .internalError
  let (ctLen, pkt) ← orFatal .decodeError .lengthMismatch (getUint 2 pkt)
  require (ctLen = kyberCtSize) .decodeError .lengthMismatch
  let (ct, pkt) ← orFatal .decodeError .lengthTooShort (splitFront ctLen pkt)
  require (pkt = []) .decodeError .lengthMismatch
  let kyberSs ← orFatal .internalError .internalError (eccKyberHybridDecaps lib ct hybridSk)
  pure (ecdheSs ++ kyberSs.1)

/-- `tls_process_cke_ecdhekyber_ntls`, with what it passes to the derivation of
the master secret. -/
def processCkeEcdhekyber (s : SSL X509 Pkey) (pkt : Bytes) : Parking Parked := do
  let p ← get
  let (hybridSk, ecdheSs, rest) ← lift (ckeEcdh lib (withPms s p) pkt)
  -- ssl_derive_ntls leaves its result in the field
  set (Parked.ecdhSecret ecdheSs)
  let combined ← lift (ckeCombine lib hybridSk ecdheSs rest)
  set (Parked.premaster combined)
  get

/-- `tls_process_client_key_exchange_ntls`.  The other suites build the
premaster secret in a buffer of their own and only read the field. -/
def processCke (k : KexSuite) (heap : Bytes) (s : SSL X509 Pkey) (pkt : Bytes) : Parking Parked :=
  if k = .ecdhekyber then processCkeEcdhekyber lib s pkt
  else do
    let p ← get
    let (pms, _) ← lift (tlsProcessClientKeyExchange lib heap (withPms s p) pkt)
    pure (.premaster pms)

/-! ## the client -/

/-- `tls_process_key_exchange_ntls`: the public key is parked before the
signature is checked. -/
def processSke (k : KexSuite) (s : SSL X509 Pkey) (pkt : Bytes) : Parking SigAlg :=
  parkBetween k.parks
    (fun p => processSkeParams lib (withPms s p) pkt)
    (fun r => .peerPublicKey (r.kex.pms.getD []))
    (fun r => verifySkeSignature lib s pkt r.rest)

/-- `tls_construct_client_key_exchange_ntls`: an error frees the field, whatever
it holds by then. -/
def constructCke (rnd : CkeRandom) (s : SSL X509 Pkey) : Parking Bytes := do
  let p ← get
  match tlsConstructClientKeyExchange lib rnd (withPms s p) with
  | .ok (body, kex) => do
      set (Parked.premaster (kex.pms.getD []))
      pure body
  | .error e => do
      set Parked.empty
      throw e

/-- `tls_client_key_exchange_post_work_ntls`, with what it passes to the
derivation of the master secret, which frees it. -/
def ckePostWork : Parking Parked := do
  let p ← get
  check (p ≠ .empty) ⟨.internalError, .internalError⟩
  set Parked.empty
  pure p

/-! ## key exchanges in a row -/

/-- How far the key exchange of the current handshake is. -/
inductive Phase where
  /-- before ServerKeyExchange -/
  | idle
  | skeFailed
  /-- between ServerKeyExchange and ClientKeyExchange -/
  | exchanged
  /-- the client has constructed ClientKeyExchange -/
  | sent
  | ckeFailed
  /-- behind ClientKeyExchange -/
  | done
  deriving DecidableEq, Repr

/-- The field with the suite and the phase of the handshake, and all that was
passed to the derivation of a master secret so far. -/
structure Slot where
  suite : KexSuite := .sm2
  phase : Phase := .idle
  parked : Parked := .empty
  passed : List Parked := []
  deriving DecidableEq, Repr

/-- What happens to the field of a server.  `derives` says whether the master
secret could be derived. -/
inductive ServerEvent (X509 Pkey : Type) where
  | start (k : KexSuite)
  | ske (s : SSL X509 Pkey) (rnd : SkeRandom)
  | cke (s : SSL X509 Pkey) (heap pkt : Bytes) (derives : Bool)
  | clear

/-- What happens to the field of a client. -/
inductive ClientEvent (X509 Pkey : Type) where
  | start (k : KexSuite)
  | ske (s : SSL X509 Pkey) (pkt : Bytes)
  | cke (s : SSL X509 Pkey) (rnd : CkeRandom)
  | postWork (derives : Bool)
  | clear

/-- A handshake begins, the first one or a renegotiation. -/
def Slot.start (v : Slot) (k : KexSuite) : Option Slot :=
  if v.phase = .idle ∨ v.phase = .done then some { v with suite := k, phase := .idle } else none

/-- `SSL_clear` -/
def Slot.clear (v : Slot) : Slot := { v with phase := .idle, parked := .empty }

/-- The phase behind the derivation of a master secret. -/
def derived (derives : Bool) : Phase := if derives then .done else .ckeFailed

def serverStep (v : Slot) : ServerEvent X509 Pkey → Option Slot
  | .start k => v.start k
  | .clear => some v.clear
  | .ske s rnd =>
    if v.phase = .idle ∧ s.mkey = v.suite.mkey then
      match (constructSke lib v.suite rnd s).run v.parked with
      | .ok _ p => some { v with phase := .exchanged, parked := p }
      | .error _ p => some { v with phase := .skeFailed, parked := p }
    else none
  | .cke s heap pkt derives =>
    if v.phase = .exchanged ∧ s.mkey = v.suite.mkey then
      match (processCke lib v.suite heap s pkt).run v.parked with
      -- the premaster secret is cleansed where it is, also if it is in the field
      | .ok m p => some { v with
          phase := derived derives
          parked := if v.suite = .ecdhekyber then p.cleanse else p
          passed := v.passed ++ [m] }
      | .error _ p => some { v with phase := .ckeFailed, parked := p }
    else none

def clientStep (v : Slot) : ClientEvent X509 Pkey → Option Slot
  | .start k => v.start k
  | .clear => some v.clear
  | .ske s pkt =>
    if v.phase = .idle ∧ s.mkey = v.suite.mkey then
      match (processSke lib v.suite s pkt).run v.parked with
      | .ok _ p => some { v with phase := .exchanged, parked := p }
      | .error _ p => some { v with phase := .skeFailed, parked := p }
    else none
  | .cke s rnd =>
    if v.phase = .exchanged ∧ s.mkey = v.suite.mkey then
      match (constructCke lib rnd s).run v.parked with
      | .ok _ p => some { v with phase := .sent, parked := p }
      | .error _ p => some { v with phase := .ckeFailed, parked := p }
    else none
  | .postWork derives =>
    if v.phase = .sent then
      match ckePostWork.run v.parked with
      | .ok m p => some { v with
          phase := derived derives
          parked := p
          passed := v.passed ++ [m] }
      | .error _ p => some { v with phase := .ckeFailed, parked := p }
    else none

/-! ## what the exits leave -/

section exits

variable {lib} {k : KexSuite} {s : SSL X509 Pkey} {p q m : Parked}
  {pkt heap : Bytes} {e : Fatal}

/-- The two parts of `tls_process_cke_ecdhekyber_ntls` make up the whole. -/
theorem tlsProcessCkeEcdhekyber_eq : tlsProcessCkeEcdhekyber lib s pkt = (do
      let (hybridSk, ecdheSs, rest) ← ckeEcdh lib s pkt
      let combined ← ckeCombine lib hybridSk ecdheSs rest
      pure (combined, { s.s3.tmp.kex with pkey := none, pms := some combined })) := by
  simp only [tlsProcessCkeEcdhekyber, ckeEcdh, ckeCombine, bind_assoc, pure_bind]

/-- What `tls_process_cke_ecdhekyber_ntls` leaves in the field at each exit. -/
theorem run_processCkeEcdhekyber : (processCkeEcdhekyber lib s pkt).run p =
      match ckeEcdh lib (withPms s p) pkt with
      | .error e => .error e p
      | .ok (hybridSk, ecdheSs, rest) =>
        match ckeCombine lib hybridSk ecdheSs rest with
        | .error e => .error e (.ecdhSecret ecdheSs)
        | .ok combined => .ok (.premaster combined) (.premaster combined) := by
  unfold processCkeEcdhekyber
  cases h : ckeEcdh lib (withPms s p) pkt with
  | error e => simp [h, lift, run_throw]
  | ok r =>
    obtain ⟨hybridSk, ecdheSs, rest⟩ := r
    cases h' : ckeCombine lib hybridSk ecdheSs rest with
    | error e => simp [h, h', lift, run_throw]
    | ok combined =>
      simp only [lift, LawfulMonadStateOf.set_bind_get, bind_pure_comp, EStateM.run_bind, EStateM.run_get,
        h, pure_bind, h', LawfulMonadStateOf.set_bind_map_set]
      rfl

/-- A ClientKeyExchange of `kECDHEKyber` that the server takes: a point on which
the exchange works and a ciphertext that the parked key opens. -/
def Accepts (lib : Libcrypto X509 Pkey) (s : SSL X509 Pkey) (p : Parked) (pkt : Bytes) : Prop :=
  ∃ hybridSk header point ct skey ckey ecdheSs, p.bytes = some hybridSk ∧
    hybridSk.length = hybridSkSize ∧
    pkt = header ++ (putUint 1 point.length ++ (point ++ (putUint 2 kyberCtSize ++ ct))) ∧
    header.length = 3 ∧ point.length < 256 ∧ ct.length = kyberCtSize ∧
    s.s3.tmp.kex.pkey = some skey ∧ lib.setEncodedPublicKey skey point = some ckey ∧
    lib.derive skey ckey = some ecdheSs ∧ ecdheSs ≠ [] ∧
    (eccKyberHybridDecaps lib ct hybridSk).isSome

theorem ckeEcdh_ok {hybridSk ecdheSs rest : Bytes} :
    ckeEcdh lib s pkt = .ok (hybridSk, ecdheSs, rest) ↔
      ∃ header point skey ckey, s.s3.tmp.kex.pms = some hybridSk ∧ hybridSk.length = hybridSkSize ∧
        pkt = header ++ (putUint 1 point.length ++ (point ++ rest)) ∧ header.length = 3 ∧
        point.length < 256 ∧ s.s3.tmp.kex.pkey = some skey ∧
        lib.setEncodedPublicKey skey point = some ckey ∧ lib.derive skey ckey = some ecdheSs := by
  simp only [ckeEcdh, except_bind_ok, orFatal_eq_ok, require_eq_ok, Prod.exists]
  constructor
  · rintro ⟨_, _, sk, hsk, _, hlen, header, r, hheader, point, r', hpoint, skey, hskey, ckey,
      hckey, ss, hss, hend⟩
    cases hend
    obtain ⟨hpkt, hh⟩ := splitFront_eq_some_iff.mp hheader
    obtain ⟨hr, hp⟩ := getPrefixed_eq_some_iff.mp hpoint
    subst hpkt hr
    exact ⟨header, point, skey, ckey, hsk, hlen, by simp, hh, hp, hskey, hckey, hss⟩
  · rintro ⟨header, point, skey, ckey, hsk, hlen, hpkt, hh, hp, hskey, hckey, hss⟩
    have hne : pkt ≠ [] := by
      rw [hpkt]
      exact List.append_ne_nil_of_left_ne_nil (List.ne_nil_of_length_pos (by omega)) _
    exact ⟨(), hne, hybridSk, hsk, (), hlen, header, _, splitFront_eq_some_iff.mpr ⟨hpkt, hh⟩,
      point, rest, getPrefixed_eq_some_iff.mpr ⟨by simp, hp⟩, skey, hskey, ckey, hckey, ecdheSs,
      hss, rfl⟩

theorem ckeCombine_ok {hybridSk ecdheSs rest combined : Bytes} :
    ckeCombine lib hybridSk ecdheSs rest = .ok combined ↔
      ∃ ct kyberSs, rest = putUint 2 kyberCtSize ++ ct ∧ ct.length = kyberCtSize ∧ ecdheSs ≠ [] ∧
        eccKyberHybridDecaps lib ct hybridSk = some kyberSs ∧ combined = ecdheSs ++ kyberSs.1 := by
  simp only [ckeCombine, except_bind_ok, orFatal_eq_ok, require_eq_ok, Prod.exists]
  constructor
  · rintro ⟨_, hne, n, r, hn, _, hsize, ct, r', hct, _, hnil, kyberSs, hdec, hend⟩
    cases hend
    obtain ⟨hrest, _⟩ := getUint_eq_some_iff.mp hn
    obtain ⟨hr, hlen⟩ := splitFront_eq_some_iff.mp hct
    subst hrest hr hnil hsize
    exact ⟨ct, kyberSs, by simp, hlen, hne, hdec, rfl⟩
  · rintro ⟨ct, kyberSs, hrest, hlen, hne, hdec, hcomb⟩
    refine ⟨(), hne, kyberCtSize, ct, getUint_eq_some_iff.mpr ⟨hrest, by decide⟩, (), rfl, ct, [],
      splitFront_eq_some_iff.mpr ⟨by simp, hlen⟩, (), rfl, kyberSs, hdec, ?_⟩
    rw [hcomb]
    rfl

/-- The message is taken exactly if it is one of the accepted. -/
theorem accepts_iff :
    Accepts lib s p pkt ↔ ∃ r, tlsProcessCkeEcdhekyber lib (withPms s p) pkt = .ok r := by
  simp only [tlsProcessCkeEcdhekyber_eq, except_bind_ok, Prod.exists]
  constructor
  · rintro ⟨sk, header, point, ct, skey, ckey, ss, hsk, hlen, hpkt, hh, hp, hct, hskey, hckey, hss,
      hne, hdec⟩
    obtain ⟨kyberSs, hdec⟩ := Option.isSome_iff_exists.mp hdec
    have hfirst : ckeEcdh lib (withPms s p) pkt = .ok (sk, ss, putUint 2 kyberCtSize ++ ct) :=
      ckeEcdh_ok.mpr ⟨header, point, skey, ckey, hsk, hlen, hpkt, hh, hp, hskey, hckey, hss⟩
    have hsecond : ckeCombine lib sk ss (putUint 2 kyberCtSize ++ ct) = .ok (ss ++ kyberSs.1) :=
      ckeCombine_ok.mpr ⟨ct, kyberSs, rfl, hct, hne, hdec, rfl⟩
    exact ⟨_, _, sk, ss, _, hfirst, _, hsecond, rfl⟩
  · rintro ⟨_, _, sk, ss, rest, hfirst, combined, hsecond, _⟩
    obtain ⟨header, point, skey, ckey, hsk, hlen, hpkt, hh, hp, hskey, hckey, hss⟩ :=
      ckeEcdh_ok.mp hfirst
    obtain ⟨ct, kyberSs, hrest, hct, hne, hdec, _⟩ := ckeCombine_ok.mp hsecond
    subst hrest
    exact ⟨sk, header, point, ct, skey, ckey, ss, hsk, hlen, hpkt, hh, hp, hct, hskey, hckey,
      hss, hne, by rw [hdec]; rfl⟩

instance : Decidable (Accepts lib s p pkt) :=
  match h : tlsProcessCkeEcdhekyber lib (withPms s p) pkt with
  | .ok r => .isTrue (accepts_iff.mpr ⟨r, h⟩)
  | .error _ => .isFalse fun hacc => by
    obtain ⟨r, hr⟩ := accepts_iff.mp hacc
    rw [h] at hr
    contradiction

/-- The other suites leave the field as it was. -/
theorem run_processCke (hk : k ≠ .ecdhekyber) : (processCke lib k heap s pkt).run p =
      match tlsProcessClientKeyExchange lib heap (withPms s p) pkt with
      | .error e => .error e p
      | .ok r => .ok (.premaster r.1) p := by
  rw [processCke, if_neg hk]
  cases h : tlsProcessClientKeyExchange lib heap (withPms s p) pkt with
  | error e =>
    simp [h, lift]
    rfl
  | ok r => simp [h, lift]

theorem run_constructCke {rnd : CkeRandom} : (constructCke lib rnd s).run p =
      match tlsConstructClientKeyExchange lib rnd (withPms s p) with
      | .error e => .error e .empty
      | .ok r => .ok r.1 (.premaster (r.2.pms.getD [])) := by
  unfold constructCke
  cases h : tlsConstructClientKeyExchange lib rnd (withPms s p) with
  | error e => simp [h, run_throw]
  | ok r =>
    simp only [bind_pure_comp, EStateM.run_bind, EStateM.run_get, h]
    rfl

variable {parks : Bool} {first : Parked → Except Fatal α} {park : α → Parked}
  {second : α → Except Fatal β}

theorem run_parkBetween : (parkBetween parks first park second).run p = match first p with
      | .error e => .error e p
      | .ok a =>
        match second a with
        | .error e => .error e (if parks then park a else p)
        | .ok b => .ok b (if parks then park a else p) := by
  unfold parkBetween
  cases h : first p with
  | error e => simp [h, lift, run_throw]
  | ok a =>
    cases h' : second a <;> cases parks <;> simp [h, h', lift, onlyIf] <;> rfl

/-- Where both parts succeeded, the thing is parked. -/
theorem parkBetween_ok {b : β} (h : (parkBetween parks first park second).run p = .ok b q) :
    (parks = true ∧ ∃ a, q = park a) ∨ (parks = false ∧ q = p) := by
  rw [run_parkBetween] at h
  split at h
  · contradiction
  · next a _ =>
    split at h
    · contradiction
    · cases h
      cases parks
      · exact .inr ⟨rfl, rfl⟩
      · exact .inl ⟨rfl, a, rfl⟩

/-- Where one of them failed, it may be. -/
theorem parkBetween_error (h : (parkBetween parks first park second).run p = .error e q) :
    (parks = true ∧ ∃ a, q = park a) ∨ q = p := by
  rw [run_parkBetween] at h
  split at h
  · cases h
    exact .inr rfl
  · next a _ =>
    split at h
    · cases h
      cases parks
      · exact .inr rfl
      · exact .inl ⟨rfl, a, rfl⟩
    · contradiction

end exits

/-! ## the kinds of the field's contents -/

inductive Kind where
  | empty
  | serverSecretKey
  | peerPublicKey
  | ecdhSecret
  | premaster
  deriving DecidableEq, Repr

def Parked.kind : Parked → Kind
  | .empty => .empty
  | .serverSecretKey _ => .serverSecretKey
  | .peerPublicKey _ => .peerPublicKey
  | .ecdhSecret _ => .ecdhSecret
  | .premaster _ => .premaster

/-- What the field of a server may hold. -/
def serverKinds (k : KexSuite) : Phase → List Kind
  | .skeFailed => if k.parks then [.empty, .premaster, .serverSecretKey] else [.empty, .premaster]
  | .exchanged => if k.parks then [.serverSecretKey] else [.empty, .premaster]
  | _ => [.empty, .premaster]

/-- What the field of a client may hold. -/
def clientKinds (k : KexSuite) : Phase → List Kind
  | .skeFailed => if k.parks then [.empty, .peerPublicKey] else [.empty]
  | .exchanged => if k.parks then [.peerPublicKey] else [.empty]
  | .sent => [.premaster]
  | _ => [.empty]

/-- The field holds what belongs there, only premaster secrets were passed on,
and no secret key is left behind ClientKeyExchange. -/
structure Unconfused (kinds : KexSuite → Phase → List Kind) (v : Slot) : Prop where
  typed : v.parked.kind ∈ kinds v.suite v.phase
  passed : ∀ m ∈ v.passed, m.kind = .premaster
  cleared : v.phase = .done ∨ v.phase = .ckeFailed → v.parked.kind ≠ .serverSecretKey

/-- What a ClientKeyExchange of a server has to be like: not one of `kECCKyber`,
and for `kECDHEKyber` an accepted one. -/
def CkeClean (v : Slot) : ServerEvent X509 Pkey → Prop
  | .cke s _ pkt _ =>
    v.suite ≠ .ecckyber ∧ (v.suite = .ecdhekyber → Accepts lib s v.parked pkt)
  | _ => True

instance (v : Slot) : (e : ServerEvent X509 Pkey) → Decidable (CkeClean lib v e)
  | .cke s _ pkt _ => inferInstanceAs
      (Decidable (v.suite ≠ .ecckyber ∧ (v.suite = .ecdhekyber → Accepts lib s v.parked pkt)))
  | .start _ | .ske _ _ | .clear => .isTrue trivial

section steps

variable {lib} {v w : Slot}

theorem Unconfused.start {k : KexSuite}
    (hkinds : ∀ k k', kinds k .done = kinds k' .idle ∧ kinds k .idle = kinds k' .idle)
    (hv : Unconfused kinds v) (h : v.start k = some w) : Unconfused kinds w := by
  unfold Slot.start at h
  split at h
  · next hphase =>
    cases h
    refine ⟨?_, hv.passed, by simp⟩
    have htyped := hv.typed
    cases hphase with
    | inl hidle => rwa [hidle, (hkinds v.suite k).2] at htyped
    | inr hdone => rwa [hdone, (hkinds v.suite k).1] at htyped
  · contradiction

theorem Unconfused.clear
    (hkinds : ∀ k, .empty ∈ kinds k .idle) (hv : Unconfused kinds v) : Unconfused kinds v.clear :=
  ⟨hkinds v.suite, hv.passed, by simp [Slot.clear]⟩

/-- A server's ServerKeyExchange parks the key, or fails. -/
theorem serverStep_ske {s : SSL X509 Pkey} {rnd : SkeRandom} (hv : Unconfused serverKinds v)
    (h : serverStep lib v (.ske s rnd) = some w) : Unconfused serverKinds w := by
  simp only [serverStep] at h
  split at h
  · next hidle =>
    have hbefore : v.parked.kind ∈ [Kind.empty, .premaster] := by
      simpa [hidle.1, serverKinds] using hv.typed
    split at h
    · next hrun =>
      cases h
      refine ⟨?_, hv.passed, by simp⟩
      obtain ⟨hparks, r, rfl⟩ | ⟨hparks, rfl⟩ := parkBetween_ok hrun
      · simp [serverKinds, hparks, Parked.kind]
      · simpa [serverKinds, hparks] using hbefore
    · next hrun =>
      cases h
      refine ⟨?_, hv.passed, ?_⟩
      · obtain ⟨hparks, r, rfl⟩ | rfl := parkBetween_error hrun
        · simp [serverKinds, hparks, Parked.kind]
        · cases hparks : v.suite.parks with
          | false => simpa [serverKinds, hparks] using hbefore
          | true => simpa [serverKinds, hparks, or_assoc] using (List.mem_append_left [.serverSecretKey] hbefore)
      · simp
  · contradiction

/-- Behind ClientKeyExchange the field holds nothing or a premaster secret. -/
theorem unconfused_behind_iff (hphase : w.phase = .done ∨ w.phase = .ckeFailed)
    (hpassed : ∀ m ∈ w.passed, m.kind = .premaster) :
    Unconfused serverKinds w ↔ w.parked.kind ∈ [Kind.empty, .premaster] := by
  have hkinds : serverKinds w.suite w.phase = [.empty, .premaster] := by
    cases hphase with
    | inl h => rw [h]; rfl
    | inr h => rw [h]; rfl
  constructor
  · intro h
    exact hkinds ▸ h.typed
  · intro h
    refine ⟨hkinds.symm ▸ h, hpassed, fun _ hkind => ?_⟩
    rw [hkind] at h
    exact absurd h (by decide)

theorem failed_unconfused_iff {p : Parked} (hv : Unconfused serverKinds v) :
    Unconfused serverKinds { v with phase := .ckeFailed, parked := p } ↔
      p.kind ∈ [Kind.empty, .premaster] :=
  unconfused_behind_iff (w := { v with phase := .ckeFailed, parked := p }) (.inr rfl) hv.passed

theorem passed_concat {m : Parked} (hv : Unconfused kinds v)
    (hm : m.kind = .premaster) : ∀ m' ∈ v.passed ++ [m], m'.kind = .premaster := by
  intro m' hm'
  cases List.mem_append.mp hm' with
  | inl h => exact hv.passed m' h
  | inr h => rwa [List.mem_singleton.mp h]

theorem derived_cases (derives : Bool) :
    derived derives = .done ∨ derived derives = .ckeFailed := by
  cases derives
  · exact .inr rfl
  · exact .inl rfl

theorem derived_unconfused_iff {p m : Parked} (derives : Bool) (hv : Unconfused serverKinds v)
    (hm : m.kind = .premaster) :
    Unconfused serverKinds
        { v with phase := derived derives, parked := p, passed := v.passed ++ [m] } ↔
      p.kind ∈ [Kind.empty, .premaster] :=
  unconfused_behind_iff
    (w := { v with phase := derived derives, parked := p, passed := v.passed ++ [m] })
    (derived_cases derives) (passed_concat hv hm)

/-- The ClientKeyExchange of `kECDHEKyber`: the parked key is replaced in two
steps, and only the second leaves something that belongs there. -/
theorem serverStep_ecdhekyber {s : SSL X509 Pkey} {heap pkt : Bytes} {derives : Bool}
    (hv : Unconfused serverKinds v) (hk : v.suite = .ecdhekyber)
    (h : serverStep lib v (.cke s heap pkt derives) = some w) :
    Unconfused serverKinds w ↔ Accepts lib s v.parked pkt := by
  simp only [serverStep, processCke, if_pos hk, run_processCkeEcdhekyber] at h
  split at h
  · next hexchanged =>
    have hsk : v.parked.kind = .serverSecretKey := by
      simpa [hexchanged.1, serverKinds, hk, KexSuite.parks] using hv.typed
    simp only [accepts_iff, tlsProcessCkeEcdhekyber_eq, except_bind_ok, Prod.exists]
    cases hfirst : ckeEcdh lib (withPms s v.parked) pkt with
    | error e =>
      simp only [hfirst, Option.some.injEq] at h
      subst h
      simp [failed_unconfused_iff hv, hsk]
    | ok r =>
      obtain ⟨hybridSk, ecdheSs, rest⟩ := r
      cases hsecond : ckeCombine lib hybridSk ecdheSs rest with
      | error e =>
        simp only [hfirst, hsecond, Option.some.injEq] at h
        subst h
        simp [failed_unconfused_iff hv, hsecond, Parked.kind]
      | ok combined =>
        simp only [hfirst, hsecond, Option.some.injEq] at h
        subst h
        refine iff_of_true ((derived_unconfused_iff derives hv rfl).mpr ?_)
          ⟨_, _, hybridSk, ecdheSs, rest, rfl, combined, hsecond, rfl⟩
        exact List.mem_cons_of_mem _ List.mem_cons_self
  · contradiction

/-- The ClientKeyExchange of another suite leaves the field as it was. -/
theorem serverStep_other {s : SSL X509 Pkey} {heap pkt : Bytes} {derives : Bool}
    (hv : Unconfused serverKinds v) (hk : v.suite ≠ .ecdhekyber)
    (h : serverStep lib v (.cke s heap pkt derives) = some w) :
    Unconfused serverKinds w ↔ v.suite ≠ .ecckyber := by
  simp only [serverStep, run_processCke hk, if_neg hk] at h
  split at h
  · next hexchanged =>
    have hkind : v.parked.kind ∈ [Kind.empty, .premaster] ↔ v.suite ≠ .ecckyber := by
      have htyped := hv.typed
      rw [hexchanged.1] at htyped
      cases hsuite : v.suite <;> simp_all [serverKinds, KexSuite.parks]
    rw [← hkind]
    cases hcke : tlsProcessClientKeyExchange lib heap (withPms s v.parked) pkt with
    | error e =>
      simp only [hcke, Option.some.injEq] at h
      subst h
      exact failed_unconfused_iff hv
    | ok r =>
      simp only [hcke, Option.some.injEq] at h
      subst h
      exact derived_unconfused_iff derives hv rfl
  · contradiction

/-- **One step of a server**: the field stays unconfused exactly if the step is
not an unclean ClientKeyExchange. -/
theorem serverStep_unconfused_iff (v : Slot) (e : ServerEvent X509 Pkey) (w : Slot)
    (hv : Unconfused serverKinds v) (h : serverStep lib v e = some w) :
    Unconfused serverKinds w ↔ CkeClean lib v e := by
  cases e with
  | start k => exact iff_of_true (hv.start (fun _ _ => ⟨rfl, rfl⟩) h) trivial
  | ske s rnd => exact iff_of_true (serverStep_ske hv h) trivial
  | cke s heap pkt derives =>
    by_cases hk : v.suite = .ecdhekyber
    · simpa [CkeClean, hk] using serverStep_ecdhekyber hv hk h
    · simpa [CkeClean, hk] using serverStep_other hv hk h
  | clear =>
    cases h
    exact iff_of_true (hv.clear fun _ => List.mem_cons_self) trivial

theorem clientStep_unconfused (v : Slot) (e : ClientEvent X509 Pkey) (w : Slot)
    (hv : Unconfused clientKinds v) (h : clientStep lib v e = some w) :
    Unconfused clientKinds w := by
  cases e with
  | start k => exact hv.start (fun _ _ => ⟨rfl, rfl⟩) h
  | clear =>
    cases h
    exact hv.clear fun _ => List.mem_cons_self
  | ske s pkt =>
    simp only [clientStep] at h
    split at h
    · next hidle =>
      have hempty : v.parked.kind = .empty := by simpa [hidle.1, clientKinds] using hv.typed
      split at h
      · next hrun =>
        cases h
        refine ⟨?_, hv.passed, by simp⟩
        obtain ⟨hparks, r, rfl⟩ | ⟨hparks, rfl⟩ := parkBetween_ok hrun
        · simp [clientKinds, hparks, Parked.kind]
        · simp [clientKinds, hparks, hempty]
      · next hrun =>
        cases h
        refine ⟨?_, hv.passed, by simp⟩
        obtain ⟨hparks, r, rfl⟩ | rfl := parkBetween_error hrun
        · simp [clientKinds, hparks, Parked.kind]
        · cases hparks : v.suite.parks <;> simp [clientKinds, hparks, hempty]
    · contradiction
  | cke s rnd =>
    simp only [clientStep, run_constructCke] at h
    split at h
    · cases hcke : tlsConstructClientKeyExchange lib rnd (withPms s v.parked) with
      | error e =>
        simp only [hcke, Option.some.injEq] at h
        subst h
        exact ⟨List.mem_cons_self, hv.passed, by simp [Parked.kind]⟩
      | ok r =>
        simp only [hcke, Option.some.injEq] at h
        subst h
        exact ⟨List.mem_cons_self, hv.passed, by simp⟩
    · contradiction
  | postWork derives =>
    simp only [clientStep] at h
    split at h
    · next hsent =>
      have hpms : v.parked.kind = .premaster := by simpa [hsent, clientKinds] using hv.typed
      have hrun : ckePostWork.run v.parked = .ok v.parked .empty := by
        have hne : v.parked ≠ .empty := fun he => by simp [he, Parked.kind] at hpms
        simp only [ckePostWork, check, ne_eq, ite_not, bind_pure_comp, EStateM.run_bind, EStateM.run_get,
          hne, if_false, pure_bind]
        rfl
      simp only [hrun, Option.some.injEq] at h
      subst h
      refine ⟨?_, passed_concat hv hpms, by simp [Parked.kind]⟩
      cases derives <;> exact List.mem_cons_self
    · contradiction

end steps

/-! ## whole runs -/

theorem fresh_unconfused
    (hkinds : .empty ∈ kinds .sm2 .idle) : Unconfused kinds {} :=
  ⟨hkinds, by simp, by simp⟩

/-- **The field is never confused** on a client, over any number of handshakes;
on a server, exactly if every ClientKeyExchange is clean. -/
theorem pms_unconfused_iff :
    (∀ (es : List (ServerEvent X509 Pkey)) (t : Slot), Run.run (serverStep lib) {} es = some t →
        (Run.Always (serverStep lib) (Unconfused serverKinds) {} es ↔
          Run.Meets (serverStep lib) (CkeClean lib) {} es)) ∧
    ∀ (es : List (ClientEvent X509 Pkey)) (t : Slot), Run.run (clientStep lib) {} es = some t →
        Run.Always (clientStep lib) (Unconfused clientKinds) {} es := by
  constructor
  · intro es t hrun
    exact Run.always_iff_meets serverStep_unconfused_iff (fresh_unconfused List.mem_cons_self) hrun
  · intro es t hrun
    refine (Run.always_iff_meets (C := fun _ _ => True) (fun v e w hv h => ?_)
      (fresh_unconfused List.mem_cons_self) hrun).mpr (Run.meets_of_forall (fun _ _ => trivial) _ _)
    exact iff_of_true (clientStep_unconfused v e w hv h) trivial

/-- A server's handshake with `ECDHE-KYBER-SM4-GCM-SM3`. -/
def ecdhekyberServerRun : List (ServerEvent Bytes (String × Bytes)) :=
  [.start .ecdhekyber, .ske ecdhekyberServer { ephemeral := [4] },
    .cke { ecdhekyberServer with s3.tmp.kex.pkey := some ("SM2", [4]) } []
      ([3, 0, 41, 1, 5, 4, 64] ++ List.replicate 1088 0) true]

theorem pms_unconfused_ecdhekyber :
    (∃ t, Run.run (serverStep .curves) {} ecdhekyberServerRun = some t ∧ t.phase = .done) ∧
      Run.Always (serverStep .curves) (Unconfused serverKinds) {} ecdhekyberServerRun := by
  obtain ⟨t, ht, hdone⟩ : ∃ t, Run.run (serverStep .curves) {} ecdhekyberServerRun = some t ∧
      t.phase = .done := by decide +kernel
  refine ⟨⟨t, ht, hdone⟩,
    ((pms_unconfused_iff .curves).1 ecdhekyberServerRun t ht).mpr ?_⟩
  decide +kernel

/-- A server in a handshake with the suite of code `0xE01D`, behind its
Certificate. -/
def hybridServer : SSL Bytes (String × Bytes) := { plainServer 0 with
    s3.tmp.newCipher := some (ntlsCipher 0x0300E01D Mkey.kECCKyber Auth.aSM2 .sm3)
    s3.tmp.sigalg := some .ntlsSm2 }

/-- After a completed `kECCKyber` handshake the field still holds the server's
secret key. -/
theorem secret_key_remains_ecckyber :
    (Run.run (serverStep .plain) {} [.start .ecckyber, .ske hybridServer {},
        .cke hybridServer [] ecckyberCke true]).map
      (fun t => (t.phase, t.parked)) =
    some (.done, .serverSecretKey (List.replicate 2432 0)) := by
  decide +kernel

end Pms

end Tlcp
