import Tlcp.Lib.Layout
import Tlcp.Ntls.ServerAuth
import Tlcp.Ntls.ClientAuth

/-!
# Tlcp.Ntls.Bodies

The bodies of the NTLS handshake messages.

Every processor that goes through has read a body of a fixed layout, a product
of fields (`serverLayout`, `clientLayout`), and nothing is left behind the
last field.  Two processors do without that check: a CertificateVerify may go
on behind its signature, and a ClientHello that is declined is not read.
-/

namespace Tlcp

open Octets Fallible Layout

variable {X509 Pkey : Type} {lib : Libcrypto X509 Pkey} {s t : SSL X509 Pkey}
  {pkt b x : Bytes}
variable {hello : ClientHello} {rest : Bytes} {u : Unit} {Ans : Type} {m : Machine X509 Pkey Ans}
  {a : Ans}

/-! ## layouts -/

/-- The extensions of a hello. -/
def extensionsBlock : Language UInt8 := prefixed 2

/-- A ClientHello in front of its extensions: version, random, session id,
cipher suites, compression methods. -/
def clientHelloFields : Language UInt8 :=
  fixed 2 * (fixed ssl3RandomSize * (prefixed 1 * (prefixed 2 * prefixed 1)))

/-- A ClientHello in an SSLv2 record: the three lengths are in front. -/
def clientHelloV2 : Language UInt8 :=
  framed 9 fun h => ofUint ((h.drop 3).take 2) + ofUint ((h.drop 5).take 2) + ofUint (h.drop 7)

/-- A ClientHello of either kind. -/
def clientHelloLayout (isv2 : Bool) : Language UInt8 :=
  if isv2 then clientHelloV2 else clientHelloFields * (1 + extensionsBlock)

/-- A ServerHello in front of its extensions: version, random, session id,
cipher suite and compression method. -/
def serverHelloFields : Language UInt8 :=
  fixed 2 * (fixed ssl3RandomSize * (prefixed 1 * (fixed 2 * fixed 1)))

/-- The fields of a ServerKeyExchange, by the key exchange of the suite.  The
last one is the signature. -/
def serverKeyExchangeLayout (mkey : Nat) : Language UInt8 :=
  if hasBit mkey Mkey.kECCKyber then fixed 2 * (fixed kyberPkSize * prefixed 2)
  else if hasBit mkey Mkey.kECDHEKyber then
    fixed 1 * (fixed 2 * (prefixed 1 * (fixed 2 * (fixed kyberPkSize * prefixed 2))))
  else if hasBit mkey Mkey.kKyberAigisEnc then prefixed 2 * prefixed 2
  else if hasBit mkey Mkey.kKyber then prefixed 2
  else if hasBit mkey Mkey.kSM2DHE then fixed 1 * (fixed 2 * (prefixed 1 * prefixed 2))
  else prefixed 2

/-- The fields of a ClientKeyExchange, by the key exchange of the suite. -/
def clientKeyExchangeLayout (mkey : Nat) : Language UInt8 :=
  if hasBit mkey (Mkey.kRSA ||| Mkey.kSM2) then prefixed 2
  else if hasBit mkey Mkey.kSM2DHE then fixed 3 * prefixed 1
  else if hasBit mkey Mkey.kECDHEKyber then
    fixed 3 * (prefixed 1 * (fixed 2 * fixed kyberCtSize))
  else if hasBit mkey Mkey.kKyberAigisEnc then prefixed 2 * prefixed 2
  else if hasBit mkey Mkey.kKyber then prefixed 2
  else prefixed 2 * (fixed 2 * fixed kyberCtSize)

/-! ## the key exchange messages -/

theorem prefixFree_serverKeyExchange (mkey : Nat) : PrefixFree (serverKeyExchangeLayout mkey) := by
  unfold serverKeyExchangeLayout
  repeat' split
  all_goals repeat' apply PrefixFree.mul
  all_goals first | exact prefixFree_fixed _ | exact prefixFree_prefixed _

theorem prefixFree_clientKeyExchange (mkey : Nat) : PrefixFree (clientKeyExchangeLayout mkey) := by
  unfold clientKeyExchangeLayout
  repeat' split
  all_goals repeat' apply PrefixFree.mul
  all_goals first | exact prefixFree_fixed _ | exact prefixFree_prefixed _

variable {r : Bytes × Kex Pkey}

theorem tlsProcessCkePms_layout
    (h : tlsProcessCkePms lib s pkt = .ok r) : pkt ∈ prefixed 2 := by
  simp only [tlsProcessCkePms, except_bind_ok, orFatal_eq_ok, require_eq_ok, Prod.exists] at h
  obtain ⟨_, _, enc, rest, henc, _, hrest, _⟩ := h
  subst hrest
  exact mem_prefixed.mpr ⟨enc, henc⟩

theorem tlsProcessCkeSm2dhe_layout
    (h : tlsProcessCkeSm2dhe lib s pkt = .ok r) : pkt ∈ fixed 3 * prefixed 1 := by
  simp only [tlsProcessCkeSm2dhe, except_bind_ok, orFatal_eq_ok, require_eq_ok, Prod.exists] at h
  obtain ⟨_, _, _, _, hcurve, point, rest, hpoint, _, hrest, _⟩ := h
  subst hrest
  exact mem_mul_of_splitFront hcurve (mem_prefixed.mpr ⟨point, hpoint⟩)

theorem tlsProcessCkeEcdhekyber_layout
    (h : tlsProcessCkeEcdhekyber lib s pkt = .ok r) :
    pkt ∈ fixed 3 * (prefixed 1 * (fixed 2 * fixed kyberCtSize)) := by
  simp only [tlsProcessCkeEcdhekyber, except_bind_ok, orFatal_eq_ok, require_eq_ok,
    Prod.exists] at h
  obtain ⟨_, _, _, _, _, _, _, _, hcurve, point, _, hpoint, _, _, _, _, _, _, _, _,
    ctLen, _, hlen, _, hsize, ct, rest, hct, _, hrest, _⟩ := h
  subst hrest hsize
  exact mem_mul_of_splitFront hcurve (mem_mul_of_getPrefixed hpoint
    (mem_mul_of_getUint hlen (mem_fixed_of_splitFront hct)))

theorem tlsProcessCkeKyberAigisEncDilithium_layout
    (h : tlsProcessCkeKyberAigisEncDilithium lib s pkt = .ok r) :
    pkt ∈ prefixed 2 * prefixed 2 := by
  simp only [tlsProcessCkeKyberAigisEncDilithium, except_bind_ok, orFatal_eq_ok, require_eq_ok,
    Prod.exists] at h
  obtain ⟨_, _, hctK, ctA, rest, hctA, _, hrest, _⟩ := h
  subst hrest
  exact mem_mul_of_getPrefixed hctK (mem_prefixed.mpr ⟨ctA, hctA⟩)

theorem tlsProcessCkeKyberDilithium_layout
    (h : tlsProcessCkeKyberDilithium lib s pkt = .ok r) : pkt ∈ prefixed 2 := by
  simp only [tlsProcessCkeKyberDilithium, except_bind_ok, orFatal_eq_ok, require_eq_ok,
    Prod.exists] at h
  obtain ⟨ct, rest, hct, _, hrest, _⟩ := h
  subst hrest
  exact mem_prefixed.mpr ⟨ct, hct⟩

theorem tlsProcessCkeEcckyber_layout {heap : Bytes}
    (h : tlsProcessCkeEcckyber lib heap s pkt = .ok r) :
    pkt ∈ prefixed 2 * (fixed 2 * fixed kyberCtSize) := by
  simp only [tlsProcessCkeEcckyber, except_bind_ok, orFatal_eq_ok, require_eq_ok, Prod.exists] at h
  obtain ⟨_, _, enc, _, henc, _, _, ctLen, _, hlen, _, hsize, ct, rest, hct, _, hrest, _⟩ := h
  subst hrest hsize
  exact mem_mul_of_getPrefixed henc (mem_mul_of_getUint hlen (mem_fixed_of_splitFront hct))

theorem tlsProcessClientKeyExchange_layout {heap : Bytes}
    (h : tlsProcessClientKeyExchange lib heap s pkt = .ok r) :
    pkt ∈ clientKeyExchangeLayout s.mkey := by
  unfold tlsProcessClientKeyExchange at h
  unfold clientKeyExchangeLayout
  split_ifs at h ⊢
  · exact tlsProcessCkePms_layout h
  · exact tlsProcessCkeSm2dhe_layout h
  · exact tlsProcessCkeEcdhekyber_layout h
  · exact tlsProcessCkeKyberAigisEncDilithium_layout h
  · exact tlsProcessCkeKyberDilithium_layout h
  · exact tlsProcessCkeEcckyber_layout h

/-- What the parameters of a ServerKeyExchange are behind which only the
signature is left. -/
theorem tlsProcessKeyExchange_layout (h : tlsProcessKeyExchange lib s pkt = .ok t) :
    pkt ∈ serverKeyExchangeLayout s.mkey := by
  simp only [tlsProcessKeyExchange, except_bind_ok] at h
  obtain ⟨p, hparams, lu, hsig, _⟩ := h
  have hrest : p.rest ∈ prefixed 2 := by
    simp only [verifySkeSignature, except_bind_ok, orFatal_eq_ok, require_eq_ok,
      Prod.exists] at hsig
    obtain ⟨_, _, _, _, _, _, sig, rest, hget, _, hrest, _⟩ := hsig
    subst hrest
    exact mem_prefixed.mpr ⟨sig, hget⟩
  unfold processSkeParams at hparams
  unfold serverKeyExchangeLayout
  split_ifs at hparams ⊢
  · simp only [tlsProcessSkeEcckyber, except_bind_ok, orFatal_eq_ok, require_eq_ok,
      Prod.exists] at hparams
    obtain ⟨n, _, hlen, _, hsize, pk, rest, hpk, _, _, _, _, _, _, hp⟩ := hparams
    injection hp with hp
    subst hp hsize
    exact mem_mul_of_getUint hlen (mem_mul_of_splitFront hpk hrest)
  · simp only [tlsProcessSkeEcdhekyber, except_bind_ok, orFatal_eq_ok, require_eq_ok,
      Prod.exists] at hparams
    obtain ⟨_, _, htype, _, _, hcurve, _, _, pt, _, hpt, _, _, n, _, hlen, _, hsize, pk, rest,
      hpk, hp⟩ := hparams
    injection hp with hp
    subst hp hsize
    exact mem_mul_of_getUint htype (mem_mul_of_getUint hcurve (mem_mul_of_getPrefixed hpt
      (mem_mul_of_getUint hlen (mem_mul_of_splitFront hpk hrest))))
  · simp only [processSkeKyberAigisEnc, except_bind_ok, orFatal_eq_ok, Prod.exists] at hparams
    obtain ⟨pk, _, hpk, _, _, hp⟩ := hparams
    injection hp with hp
    subst hp
    exact mem_mul_of_getPrefixed hpk hrest
  · injection hparams with hp
    subst hp
    exact hrest
  · simp only [tlsProcessSkeSm2dhe, except_bind_ok, orFatal_eq_ok, Prod.exists] at hparams
    obtain ⟨_, _, htype, _, _, hcurve, _, _, pt, _, hpt, _, _, hp⟩ := hparams
    injection hp with hp
    subst hp
    exact mem_mul_of_getUint htype (mem_mul_of_getUint hcurve (mem_mul_of_getPrefixed hpt hrest))
  · injection hparams with hp
    subst hp
    exact hrest

/-! ## the hellos -/

theorem prefixFree_clientHelloFields : PrefixFree clientHelloFields :=
  (prefixFree_fixed 2).mul ((prefixFree_fixed _).mul ((prefixFree_prefixed 1).mul
    ((prefixFree_prefixed 2).mul (prefixFree_prefixed 1))))

theorem prefixFree_serverHelloFields : PrefixFree serverHelloFields :=
  (prefixFree_fixed 2).mul ((prefixFree_fixed _).mul ((prefixFree_prefixed 1).mul
    ((prefixFree_fixed 2).mul (prefixFree_fixed 1))))

/-- The part of a ClientHello in front of its extensions was read, and `rest`
is what is left. -/
def ClientHello.Front (hello : ClientHello) (pkt rest : Bytes) : Prop :=
  hello.isv2 = false ∧ hello.sessionId.length ≤ sslMaxSslSessionIdLength ∧
    ∃ p₁ p₂ p₃ p₄, getUint 2 pkt = some (hello.legacyVersion, p₁) ∧
      splitFront ssl3RandomSize p₁ = some (hello.random, p₂) ∧
      getPrefixed 1 p₂ = some (hello.sessionId, p₃) ∧
      getPrefixed 2 p₃ = some (hello.ciphersuites, p₄) ∧
      getPrefixed 1 p₄ = some (hello.compressions, rest)

theorem ClientHello.Front.mem {L : Language UInt8}
    (h : hello.Front pkt rest) (hrest : rest ∈ L) : pkt ∈ clientHelloFields * L := by
  obtain ⟨_, _, _, _, _, _, hver, hrnd, hsid, hsuites, hcomp⟩ := h
  simp only [clientHelloFields, mul_assoc]
  exact mem_mul_of_getUint hver (mem_mul_of_splitFront hrnd (mem_mul_of_getPrefixed hsid
    (mem_mul_of_getPrefixed hsuites (mem_mul_of_getPrefixed hcomp hrest))))

theorem ClientHello.Front.suffix (x : Bytes)
    (h : hello.Front pkt rest) : hello.Front (pkt ++ x) (rest ++ x) := by
  obtain ⟨hv2, hlen, p₁, p₂, p₃, p₄, hver, hrnd, hsid, hsuites, hcomp⟩ := h
  exact ⟨hv2, hlen, p₁ ++ x, p₂ ++ x, p₃ ++ x, p₄ ++ x, getUint_suffix x hver,
    splitFront_suffix x hrnd, getPrefixed_suffix x hsid, getPrefixed_suffix x hsuites,
    getPrefixed_suffix x hcomp⟩

/-- Behind the fields of a hello: its extensions or nothing. -/
theorem extensions_or_nothing {α : Type} {hello hello' : α} {r : Reason} :
    (if rest = [] then pure hello
      else orFatal .decodeError r (getPrefixed 2 rest) >>= fun p =>
        require (p.2 = []) .decodeError r >>= fun _ => pure hello : Except Fatal α) = .ok hello' ↔
      hello = hello' ∧ (rest = [] ∨ rest ∈ extensionsBlock) := by
  split
  · next hnil => simp [hnil, pure, Except.pure]
  · next hne =>
    simp only [except_bind_ok, orFatal_eq_ok, require_eq_ok, Prod.exists, hne, false_or,
      extensionsBlock, mem_prefixed]
    constructor
    · rintro ⟨ext, left, hext, _, hleft, h⟩
      injection h with h
      subst hleft
      exact ⟨h, ext, hext⟩
    · rintro ⟨h, ext, hext⟩
      exact ⟨ext, [], hext, (), rfl, by rw [h]; rfl⟩

/-- A regular ClientHello: its front, and extensions or nothing. -/
theorem parseClientHello_eq_ok : parseClientHello pkt = .ok hello ↔
      ∃ rest, hello.Front pkt rest ∧ (rest = [] ∨ rest ∈ extensionsBlock) := by
  simp only [parseClientHello, except_bind_ok, orFatal_eq_ok, require_eq_ok, Prod.exists,
    extensions_or_nothing]
  constructor
  · intro h
    obtain ⟨_, p₁, hver, _, p₂, hrnd, _, p₃, hsid, _, hlen, _, p₄, hsuites, _, rest, hcomp, rfl,
      hrest⟩ := h
    exact ⟨rest, ⟨rfl, hlen, p₁, p₂, p₃, p₄, hver, hrnd, hsid, hsuites, hcomp⟩, hrest⟩
  · rintro ⟨rest, ⟨hv2, hlen, p₁, p₂, p₃, p₄, hver, hrnd, hsid, hsuites, hcomp⟩, hrest⟩
    obtain ⟨isv2, _, _, _, _, _⟩ := hello
    subst hv2
    exact ⟨_, p₁, hver, _, p₂, hrnd, _, p₃, hsid, (), hlen, _, p₄, hsuites, _, rest, hcomp, rfl, hrest⟩

theorem parseClientHello_layout (h : parseClientHello pkt = .ok hello) :
    pkt ∈ clientHelloFields * (1 + extensionsBlock) := by
  obtain ⟨rest, hfront, hrest⟩ := parseClientHello_eq_ok.mp h
  exact hfront.mem ((Language.mem_add _ _ _).mpr hrest)

/-- Extensions can be put behind a ClientHello that has none. -/
theorem parseClientHello_extended (h : parseClientHello b = .ok hello)
    (hb : b ∈ clientHelloFields) (hx : x ∈ extensionsBlock) :
    parseClientHello (b ++ x) = .ok hello := by
  obtain ⟨rest, hfront, _⟩ := parseClientHello_eq_ok.mp h
  have hnil : rest = [] :=
    prefixFree_clientHelloFields.rest_eq_nil hb (hfront.mem (mem_single.mpr rfl))
  subst hnil
  exact parseClientHello_eq_ok.mpr ⟨[] ++ x, hfront.suffix x, .inr hx⟩

theorem parseClientHelloV2_layout (h : parseClientHelloV2 pkt = .ok hello) :
    pkt ∈ clientHelloV2 := by
  simp only [parseClientHelloV2, except_bind_ok, orFatal_eq_ok, require_eq_ok, Prod.exists] at h
  obtain ⟨mt, p₁, hmt, _, _, v, p₂, hver, cs, p₃, hcs, sid, p₄, hsid, ch, p₅, hch, _, _,
    suites, p₆, hsuites, session, p₇, hsession, challenge, p₈, hchallenge, _, hnil, _⟩ := h
  subst hnil
  obtain ⟨hmt, _⟩ := getUint_eq_some_iff.mp hmt
  obtain ⟨hver, _⟩ := getUint_eq_some_iff.mp hver
  obtain ⟨hcs, hcsLt⟩ := getUint_eq_some_iff.mp hcs
  obtain ⟨hsid, hsidLt⟩ := getUint_eq_some_iff.mp hsid
  obtain ⟨hch, hchLt⟩ := getUint_eq_some_iff.mp hch
  obtain ⟨hsuites, hsuitesLen⟩ := splitFront_eq_some_iff.mp hsuites
  obtain ⟨hsession, hsessionLen⟩ := splitFront_eq_some_iff.mp hsession
  obtain ⟨hchallenge, hchallengeLen⟩ := splitFront_eq_some_iff.mp hchallenge
  refine ⟨putUint 1 mt ++ putUint 2 v ++ putUint 2 cs ++ putUint 2 sid ++ putUint 2 ch,
    suites ++ session ++ challenge, ?_, by simp, ?_⟩
  · rw [hmt, hver, hcs, hsid, hch, hsuites, hsession, hchallenge]
    simp
  · have hcsLen := ofUint_putUint hcsLt
    have hsidLen := ofUint_putUint hsidLt
    have hchLen := ofUint_putUint hchLt
    simp [List.drop_append, List.drop_eq_nil_of_le, hcsLen, hsidLen, hchLen, hsuitesLen,
      hsessionLen, hchallengeLen, Nat.add_assoc]

/-- The part of a ServerHello in front of its extensions was read, and `rest`
is what is left. -/
def ServerHello.Front (hello : ServerHello) (pkt rest : Bytes) : Prop :=
  hello.sessionId.length ≤ sslMaxSslSessionIdLength ∧
    ∃ p₁ p₂ p₃ p₄, getUint 2 pkt = some (hello.version, p₁) ∧
      splitFront ssl3RandomSize p₁ = some (hello.random, p₂) ∧
      getPrefixed 1 p₂ = some (hello.sessionId, p₃) ∧
      getUint 2 p₃ = some (hello.cipher, p₄) ∧ getUint 1 p₄ = some (hello.compression, rest)

theorem ServerHello.Front.mem {hello : ServerHello} {L : Language UInt8}
    (h : hello.Front pkt rest) (hrest : rest ∈ L) : pkt ∈ serverHelloFields * L := by
  obtain ⟨_, _, _, _, _, hver, hrnd, hsid, hcipher, hcomp⟩ := h
  simp only [serverHelloFields, mul_assoc]
  exact mem_mul_of_getUint hver (mem_mul_of_splitFront hrnd (mem_mul_of_getPrefixed hsid
    (mem_mul_of_getUint hcipher (mem_mul_of_getUint hcomp hrest))))

theorem ServerHello.Front.suffix {hello : ServerHello} (x : Bytes)
    (h : hello.Front pkt rest) : hello.Front (pkt ++ x) (rest ++ x) := by
  obtain ⟨hlen, p₁, p₂, p₃, p₄, hver, hrnd, hsid, hcipher, hcomp⟩ := h
  exact ⟨hlen, p₁ ++ x, p₂ ++ x, p₃ ++ x, p₄ ++ x, getUint_suffix x hver,
    splitFront_suffix x hrnd, getPrefixed_suffix x hsid, getUint_suffix x hcipher,
    getUint_suffix x hcomp⟩

/-- A ServerHello: its front, and extensions or nothing. -/
theorem parseServerHello_eq_ok {hello : ServerHello} : parseServerHello pkt = .ok hello ↔
      ∃ rest, hello.Front pkt rest ∧ (rest = [] ∨ rest ∈ extensionsBlock) := by
  simp only [parseServerHello, except_bind_ok, orFatal_eq_ok, require_eq_ok, Prod.exists,
    extensions_or_nothing]
  constructor
  · intro h
    obtain ⟨_, p₁, hver, _, p₂, hrnd, _, p₃, hsid, _, hlen, _, p₄, hcipher, _, rest, hcomp, rfl,
      hrest⟩ := h
    exact ⟨rest, ⟨hlen, p₁, p₂, p₃, p₄, hver, hrnd, hsid, hcipher, hcomp⟩, hrest⟩
  · rintro ⟨rest, ⟨hlen, p₁, p₂, p₃, p₄, hver, hrnd, hsid, hcipher, hcomp⟩, hrest⟩
    exact ⟨_, p₁, hver, _, p₂, hrnd, _, p₃, hsid, (), hlen, _, p₄, hcipher, _, rest, hcomp, rfl, hrest⟩

theorem parseServerHello_layout {hello : ServerHello} (h : parseServerHello pkt = .ok hello) :
    pkt ∈ serverHelloFields * (1 + extensionsBlock) := by
  obtain ⟨rest, hfront, hrest⟩ := parseServerHello_eq_ok.mp h
  exact hfront.mem ((Language.mem_add _ _ _).mpr hrest)

/-- Extensions can be put behind a ServerHello that has none. -/
theorem parseServerHello_extended {hello : ServerHello} (h : parseServerHello b = .ok hello)
    (hb : b ∈ serverHelloFields) (hx : x ∈ extensionsBlock) :
    parseServerHello (b ++ x) = .ok hello := by
  obtain ⟨rest, hfront, _⟩ := parseServerHello_eq_ok.mp h
  have hnil : rest = [] :=
    prefixFree_serverHelloFields.rest_eq_nil hb (hfront.mem (mem_single.mpr rfl))
  subst hnil
  exact parseServerHello_eq_ok.mpr ⟨[] ++ x, hfront.suffix x, .inr hx⟩

/-! ## the layouts of all messages -/

variable (lib)

/-- The one Finished that the connection accepts. -/
def finishedLayout (s : SSL X509 Pkey) : Language UInt8 :=
  match s.s3.tmp.newCipher with
  | none => 0
  | some c => single (finishMac lib c.handshakeMac s.session.masterKey (finishedLabel (!s.server))
      s.transcript)

/-- What the server reads of a message, field by field.  A CertificateVerify
may go on behind its signature. -/
def serverLayout (isv2 : Bool) (s : SSL X509 Pkey) : MsgType → Language UInt8
  | .clientHello => clientHelloLayout isv2
  | .certificate => prefixed 3
  | .clientKeyExchange => clientKeyExchangeLayout s.mkey
  | .certificateVerify => prefixed 2 * ⊤
  | .nextProto => prefixed 1 * prefixed 1
  | .changeCipherSpec => 1
  | .finished => finishedLayout lib s
  | _ => 0

/-- What the client reads of a message, field by field. -/
def clientLayout (s : SSL X509 Pkey) : MsgType → Language UInt8
  | .serverHello => serverHelloFields * (1 + extensionsBlock)
  | .certificate => prefixed 3
  | .certificateStatus => fixed 1 * prefixed 3
  | .serverKeyExchange => serverKeyExchangeLayout s.mkey
  | .certificateRequest => prefixed 1 * prefixed 2
  | .serverDone | .helloRequest | .changeCipherSpec => 1
  | .newSessionTicket => fixed 4 * prefixed 2
  | .finished => finishedLayout lib s
  | _ => 0

theorem prefixFree_finishedLayout (s : SSL X509 Pkey) :
    PrefixFree (finishedLayout lib s) := by
  unfold finishedLayout
  split
  · exact prefixFree_zero
  · exact prefixFree_single _

variable {lib}

theorem prefixFree_serverLayout {isv2 : Bool} {mt : MsgType}
    (hmt : mt ≠ .certificateVerify) (hhello : mt = .clientHello → isv2 = true) :
    PrefixFree (serverLayout lib isv2 s mt) := by
  cases mt with
  | clientHello =>
    rw [hhello rfl]
    exact prefixFree_framed 9 _
  | certificate => exact prefixFree_prefixed 3
  | clientKeyExchange => exact prefixFree_clientKeyExchange _
  | certificateVerify => exact absurd rfl hmt
  | nextProto => exact (prefixFree_prefixed 1).mul (prefixFree_prefixed 1)
  | changeCipherSpec => exact prefixFree_one
  | finished => exact prefixFree_finishedLayout lib s
  | _ => exact prefixFree_zero

theorem prefixFree_clientLayout {mt : MsgType} (hmt : mt ≠ .serverHello) :
    PrefixFree (clientLayout lib s mt) := by
  cases mt with
  | serverHello => exact absurd rfl hmt
  | certificate => exact prefixFree_prefixed 3
  | certificateStatus => exact (prefixFree_fixed 1).mul (prefixFree_prefixed 3)
  | serverKeyExchange => exact prefixFree_serverKeyExchange _
  | certificateRequest => exact (prefixFree_prefixed 1).mul (prefixFree_prefixed 2)
  | serverDone => exact prefixFree_one
  | helloRequest => exact prefixFree_one
  | changeCipherSpec => exact prefixFree_one
  | newSessionTicket => exact (prefixFree_fixed 4).mul (prefixFree_prefixed 2)
  | finished => exact prefixFree_finishedLayout lib s
  | _ => exact prefixFree_zero

/-! ## what is accepted -/

/-- The driver reads the message and its processor goes through. -/
def Accepts {Ans : Type} (lib : Libcrypto X509 Pkey) (m : Machine X509 Pkey Ans)
    (s : SSL X509 Pkey) (mt : MsgType) (body : Bytes) (ans : Ans) : Prop :=
  ∃ t, (readMessage lib m mt body ans).run s = .ok () t

/-- Adding a message to the transcript touches nothing else. -/
theorem tlsGetMessageBody_frame {mt : MsgType} {hs : HandState} (hfin : mt ≠ .finished)
    (h : (tlsGetMessageBody lib mt pkt).run { s with statem.handState := hs } = .ok u t) :
    ∃ dg bf, t = { s with
      statem.handState := hs, s3.handshakeDgst := dg, s3.handshakeBuffer := bf } := by
  obtain ⟨_, s₁, hmac, h⟩ := run_bind_ok.mp h
  have hs₁ : { s with statem.handState := hs } = s₁ := by
    simpa [run_onlyIf_ok, hfin] using hmac
  subst hs₁
  cases run_onlyIf_ok.mp h with
  | inl hfeed =>
    obtain ⟨_, ht⟩ := Fed.of_ssl3FinishMac hfeed.2
    exact ⟨_, _, ht⟩
  | inr hskip => exact ⟨_, _, hskip.2.symm⟩

variable {ans : ServerAnswers X509} {mt : MsgType} {r : MsgProcess}

theorem tlsProcessClientHello_layout (h : (tlsProcessClientHello ans pkt).run s = .ok r t)
    (hfirst : s.isFirstHandshake = true) : pkt ∈ clientHelloLayout ans.isv2 := by
  rw [tlsProcessClientHello, run_get_bind_ok, if_pos hfirst, run_lift_bind_ok] at h
  obtain ⟨hello, hparse, _⟩ := h
  unfold clientHelloLayout
  split at hparse
  · next hv2 =>
    rw [if_pos hv2]
    exact parseClientHelloV2_layout hparse
  · next hv2 =>
    rw [if_neg hv2]
    exact parseClientHello_layout hparse

theorem tlsProcessClientCertificate_layout
    (h : (tlsProcessClientCertificate lib ans pkt).run s = .ok r t) : pkt ∈ prefixed 3 := by
  rw [tlsProcessClientCertificate, run_lift_bind_ok] at h
  obtain ⟨sk, hparse, _⟩ := h
  simp only [parseClientCertificate, except_bind_ok, orFatal_eq_ok, require_eq_ok,
    Prod.exists] at hparse
  obtain ⟨list, rest, hget, _, hrest, _⟩ := hparse
  subst hrest
  exact mem_prefixed.mpr ⟨list, hget⟩

theorem tlsProcessNextProto_layout (h : (tlsProcessNextProto pkt).run s = .ok r t) :
    pkt ∈ prefixed 1 * prefixed 1 := by
  rw [tlsProcessNextProto, run_orThrow_bind_ok] at h
  obtain ⟨⟨proto, p₁⟩, hproto, h⟩ := h
  rw [run_orThrow_bind_ok] at h
  obtain ⟨⟨padding, p₂⟩, hpadding, h⟩ := h
  rw [run_check_bind_ok] at h
  obtain ⟨hnil, _⟩ := h
  subst hnil
  exact mem_mul_of_getPrefixed hproto (mem_prefixed.mpr ⟨padding, hpadding⟩)

/-- The processor of the message went through, with the message in the
transcript. -/
theorem server_processed (h : Accepts lib (server lib) s mt pkt ans) (hfin : mt ≠ .finished) :
    ∃ hs dg bf r t, serverReadTransition s mt = .ok hs ∧
      (serverProcessMessage lib ans pkt).run { s with
        statem.handState := hs, s3.handshakeDgst := dg, s3.handshakeBuffer := bf } = .ok r t := by
  obtain ⟨_, h⟩ := h
  obtain ⟨s₁, s₂, r, t, htran, hbody, hproc, _⟩ := readMessage_ok h
  obtain ⟨hs, hnext, hs₁⟩ := server_readTransition_ok htran
  subst hs₁
  obtain ⟨dg, bf, hs₂⟩ := tlsGetMessageBody_frame hfin hbody
  subst hs₂
  exact ⟨hs, dg, bf, r, t, hnext, hproc⟩

theorem server_finished_layout (h : Accepts lib (server lib) s .finished pkt ans) :
    pkt ∈ finishedLayout lib s := by
  obtain ⟨_, h⟩ := h
  cases server_readMessage_ok h with
  | finished body c hst hc hmac ht =>
    simp only [finishedLayout, hc]
    exact hmac

/-- **What the server reads**: every byte of a body that it accepts is in a
field. -/
theorem server_accepts_layout (h : Accepts lib (server lib) s mt pkt ans)
    (hverify : mt ≠ .certificateVerify) (hfirst : mt = .clientHello → s.isFirstHandshake = true) :
    pkt ∈ serverLayout lib ans.isv2 s mt := by
  by_cases hfin : mt = .finished
  · subst hfin
    exact server_finished_layout h
  obtain ⟨hs, dg, bf, r, t, hnext, hproc⟩ := server_processed h hfin
  rw [serverProcessMessage, run_get_bind_ok] at hproc
  rcases serverReadTransition_ok hnext with h | h | h | h | h | h | h
  all_goals obtain ⟨hmt, hhs, _⟩ := h; subst hmt hhs
  · exact tlsProcessClientHello_layout hproc (hfirst rfl)
  · exact tlsProcessClientCertificate_layout hproc
  · rw [processClientKeyExchange, run_get_bind_ok, run_lift_bind_ok] at hproc
    obtain ⟨p, hcke, _⟩ := hproc
    exact tlsProcessClientKeyExchange_layout hcke
  · exact absurd rfl hverify
  · exact (tlsProcessChangeCipherSpec_ok hproc).2.1
  · exact tlsProcessNextProto_layout hproc
  · exact absurd rfl hfin

section client

variable {ans : ClientAnswers X509 Pkey}

theorem tlsProcessServerCertificate_layout
    (h : (tlsProcessServerCertificate lib pkt).run s = .ok r t) : pkt ∈ prefixed 3 := by
  rw [tlsProcessServerCertificate, run_modify_bind_ok, run_lift_bind_ok] at h
  obtain ⟨certs, hparse, _⟩ := h
  simp only [parseServerCertificate, except_bind_ok, orFatal_eq_ok, require_eq_ok,
    Prod.exists] at hparse
  obtain ⟨n, rest, hget, _, hlen, _⟩ := hparse
  exact mem_prefixed_of_getUint hget hlen.1

theorem tlsProcessCertStatus_layout (h : (tlsProcessCertStatus pkt).run s = .ok r t) :
    pkt ∈ fixed 1 * prefixed 3 := by
  rw [tlsProcessCertStatus, run_orThrow_bind_ok] at h
  obtain ⟨⟨type, p₁⟩, htype, h⟩ := h
  rw [run_check_bind_ok, run_orThrow_bind_ok] at h
  obtain ⟨_, ⟨resplen, p₂⟩, hlen, h⟩ := h
  rw [run_check_bind_ok] at h
  exact mem_mul_of_getUint htype (mem_prefixed_of_getUint hlen h.1)

theorem tlsProcessCertificateRequest_layout
    (h : (tlsProcessCertificateRequest ans pkt).run s = .ok r t) :
    pkt ∈ prefixed 1 * prefixed 2 := by
  rw [tlsProcessCertificateRequest, run_orThrow_bind_ok] at h
  obtain ⟨⟨types, p₁⟩, htypes, h⟩ := h
  rw [run_lift_bind_ok] at h
  obtain ⟨rest, hnames, h⟩ := h
  rw [run_check_bind_ok] at h
  obtain ⟨hnil, _⟩ := h
  simp only [parseCaNames, except_bind_ok, orFatal_eq_ok, Prod.exists] at hnames
  obtain ⟨cadns, p₂, hget, _, _, hrest⟩ := hnames
  injection hrest with hrest
  subst hrest hnil
  exact mem_mul_of_getPrefixed htypes (mem_prefixed.mpr ⟨cadns, hget⟩)

theorem tlsProcessNewSessionTicket_layout
    (h : (tlsProcessNewSessionTicket lib pkt).run s = .ok r t) : pkt ∈ fixed 4 * prefixed 2 := by
  rw [tlsProcessNewSessionTicket, run_orThrow_bind_ok] at h
  obtain ⟨⟨lifetime, p₁⟩, hlifetime, h⟩ := h
  rw [run_orThrow_bind_ok] at h
  obtain ⟨⟨ticklen, p₂⟩, hlen, h⟩ := h
  rw [run_check_bind_ok] at h
  exact mem_mul_of_getUint hlifetime (mem_prefixed_of_getUint hlen h.1)

theorem tlsProcessHelloReq_layout (h : (tlsProcessHelloReq ans pkt).run s = .ok r t) :
    pkt ∈ (1 : Language UInt8) := by
  rw [tlsProcessHelloReq, run_check_bind_ok] at h
  exact h.1

theorem client_processed (h : Accepts lib (client lib) s mt pkt ans) (hfin : mt ≠ .finished) :
    ∃ hs hit dg bf r t, clientReadNext s mt = some hs ∧
      (clientProcessMessage lib ans pkt).run { s with
        hit := hit, statem.handState := hs, s3.handshakeDgst := dg,
        s3.handshakeBuffer := bf } = .ok r t := by
  obtain ⟨_, h⟩ := h
  obtain ⟨s₁, s₂, r, t, htran, hbody, hproc, _⟩ := readMessage_ok h
  obtain ⟨hs, hnext, hs₁⟩ := clientReadTransition_ok htran
  subst hs₁
  obtain ⟨dg, bf, hs₂⟩ := tlsGetMessageBody_frame
    (s := { s with hit := s.hit || decide (secretResumption s mt) }) hfin hbody
  subst hs₂
  exact ⟨hs, _, dg, bf, r, t, hnext, hproc⟩

theorem client_finished_layout (h : Accepts lib (client lib) s .finished pkt ans) :
    pkt ∈ finishedLayout lib s := by
  obtain ⟨_, h⟩ := h
  cases client_readMessage_ok h with
  | finished body c hst hc hmac ht =>
    simp only [finishedLayout, hc]
    exact hmac

/-- **What the client reads**: every byte of a body that it accepts is in a
field. -/
theorem client_accepts_layout (h : Accepts lib (client lib) s mt pkt ans) :
    pkt ∈ clientLayout lib s mt := by
  by_cases hfin : mt = .finished
  · subst hfin
    exact client_finished_layout h
  obtain ⟨hs, hit, dg, bf, r, t, hnext, hproc⟩ := client_processed h hfin
  rw [clientProcessMessage, run_get_bind_ok] at hproc
  rcases clientReadNext_some hnext with h | h | h | h | h | h | h | h | h | h
  all_goals obtain ⟨hmt, hhs, _⟩ := h; subst hmt hhs
  · rw [tlsProcessServerHello, run_lift_bind_ok] at hproc
    obtain ⟨hello, hparse, _⟩ := hproc
    exact parseServerHello_layout hparse
  · exact tlsProcessServerCertificate_layout hproc
  · exact tlsProcessCertStatus_layout hproc
  · rw [processServerKeyExchange, run_get_bind_ok, run_lift_bind_ok] at hproc
    obtain ⟨s', hske, _⟩ := hproc
    have hlayout := tlsProcessKeyExchange_layout hske
    exact hlayout
  · exact tlsProcessCertificateRequest_layout hproc
  · exact (tlsProcessServerDone_ok hproc).2.1
  · exact tlsProcessNewSessionTicket_layout hproc
  · exact (tlsProcessChangeCipherSpec_ok hproc).2.1
  · exact absurd rfl hfin
  · exact tlsProcessHelloReq_layout hproc

end client

/-! ## bodies that may go on -/

/-- Another body of the same message is added to the transcript in the same
way. -/
theorem tlsGetMessageBody_again (hfin : mt ≠ .finished) (hhrr : isHrr mt b ↔ isHrr mt pkt)
    (h : (tlsGetMessageBody lib mt b).run s = .ok u t) :
    ∃ dg bf, (tlsGetMessageBody lib mt pkt).run s =
      .ok () { s with s3.handshakeDgst := dg, s3.handshakeBuffer := bf } ∧
      (s.s3.handshakeDgst ≠ none → bf = s.s3.handshakeBuffer) := by
  obtain ⟨_, s₁, hmac, h⟩ := run_bind_ok.mp h
  have hs₁ : s = s₁ := by simpa [run_onlyIf_ok, hfin] using hmac
  subst hs₁
  have hskip : (onlyIf (mt = .finished) (ssl3TakeMac lib)).run s = .ok () s :=
    run_onlyIf_ok.mpr (.inr ⟨hfin, rfl⟩)
  cases run_onlyIf_ok.mp h with
  | inr hno =>
    refine ⟨s.s3.handshakeDgst, s.s3.handshakeBuffer, ?_, fun _ => rfl⟩
    exact run_bind_ok.mpr ⟨(), s, hskip,
      run_onlyIf_ok.mpr (.inr ⟨by rw [← hhrr]; exact hno.1, rfl⟩)⟩
  | inl hfeed =>
    have hcond : mt ≠ .changeCipherSpec ∧ ¬ isHrr mt pkt := by rw [← hhrr]; exact hfeed.1
    cases ssl3FinishMac_ok hfeed.2 with
    | inl hd =>
      obtain ⟨d, hd, _⟩ := hd
      refine ⟨some (d ++ handshakeBytes mt pkt), s.s3.handshakeBuffer, ?_, fun _ => rfl⟩
      refine run_bind_ok.mpr ⟨(), s, hskip, run_onlyIf_ok.mpr (.inl ⟨hcond, ?_⟩)⟩
      rw [ssl3FinishMac, run_get_bind_ok]
      simp only [hd, run_modify_ok]
    | inr hb =>
      obtain ⟨bf, hd, hb, _⟩ := hb
      refine ⟨none, some (bf ++ handshakeBytes mt pkt), ?_, fun hne => absurd hd hne⟩
      refine run_bind_ok.mpr ⟨(), s, hskip, run_onlyIf_ok.mpr (.inl ⟨hcond, ?_⟩)⟩
      rw [ssl3FinishMac, run_get_bind_ok]
      simp only [hd, hb, run_modify_ok]

/-- The driver checks the size of a message first. -/
theorem readMessage_size
    (h : (readMessage lib m mt pkt a).run s = .ok u t) :
    ∃ s₁, (m.readTransition mt).run s = .ok () s₁ ∧ messageSize mt pkt ≤ m.maxMessageSize s₁ := by
  obtain ⟨_, s₁, htran, h⟩ := run_bind_ok.mp h
  rw [run_get_bind_ok, run_check_bind_ok] at h
  exact ⟨s₁, htran, h.1⟩

/-- Another body of the same message is accepted if it is not too long and its
processor goes through on it.  The two differ in the transcript only; once the
running hash was started, not in the buffer. -/
theorem accepts_other (hfin : mt ≠ .finished)
    (hhrr : isHrr mt b ↔ isHrr mt pkt) (h : Accepts lib m s mt b a)
    (hother : ∀ s₁ r t dg bf dg' bf', (m.readTransition mt).run s = .ok () s₁ →
      (s₁.s3.handshakeDgst ≠ none → bf = bf') →
      (m.processMessage a b).run { s₁ with
        s3.handshakeDgst := dg, s3.handshakeBuffer := bf } = .ok r t →
      messageSize mt pkt ≤ m.maxMessageSize s₁ ∧ ∃ t', (m.processMessage a pkt).run { s₁ with
          s3.handshakeDgst := dg', s3.handshakeBuffer := bf' } = .ok r t') :
    Accepts lib m s mt pkt a := by
  obtain ⟨_, h⟩ := h
  obtain ⟨s₁, s₂, r, t, htran, hbody, hproc, _⟩ := readMessage_ok h
  obtain ⟨dg, bf, hs₂, hbf⟩ := tlsGetMessageBody_again hfin Iff.rfl hbody
  obtain ⟨dg', bf', hbody', hbf'⟩ := tlsGetMessageBody_again hfin hhrr hbody
  rw [hbody] at hs₂
  injection hs₂ with _ hs₂
  subst hs₂
  obtain ⟨hsize, t', hproc'⟩ := hother s₁ r t dg bf dg' bf' htran
    (fun hne => (hbf hne).trans (hbf' hne).symm) hproc
  refine ⟨SSL.afterProcess r { t' with trace := t'.trace ++ [.accepted mt pkt] },
    run_bind_ok.mpr ⟨(), s₁, htran, ?_⟩⟩
  rw [run_get_bind_ok, run_check_bind_ok, run_bind_ok]
  refine ⟨hsize, (), _, hbody', run_bind_ok.mpr ⟨r, t', hproc', ?_⟩⟩
  rw [record, run_modify_bind_ok, run_modify_ok]

/-- The signature of a CertificateVerify is read and what follows it is not. -/
theorem tlsProcessCertVerify_suffix (x : Bytes) (h : (tlsProcessCertVerify lib b).run s = .ok r t) :
    (tlsProcessCertVerify lib (b ++ x)).run s = .ok r t := by
  rw [tlsProcessCertVerify, run_get_bind_ok, run_modify_bind_ok, run_orThrow_bind_ok] at h ⊢
  obtain ⟨key, hkey, h⟩ := h
  refine ⟨key, hkey, ?_⟩
  rw [run_check_bind_ok, run_orThrow_bind_ok] at h ⊢
  obtain ⟨hinfo, lu, hlu, h⟩ := h
  refine ⟨hinfo, lu, hlu, ?_⟩
  rw [run_modify_bind_ok, run_orThrow_bind_ok] at h ⊢
  obtain ⟨⟨len, rest⟩, hlen, h⟩ := h
  refine ⟨(len, rest ++ x), getUint_suffix x hlen, ?_⟩
  dsimp only at h ⊢
  rw [run_orThrow_bind_ok] at h ⊢
  obtain ⟨⟨sig, rest'⟩, hsig, h⟩ := h
  exact ⟨(sig, rest' ++ x), splitFront_suffix x hsig, h⟩

/-- A CertificateVerify is checked against the buffer, not the running hash. -/
theorem blind_tlsProcessCertVerify (dg : Option Bytes) :
    Blind (fun s : SSL X509 Pkey => { s with s3.handshakeDgst := dg })
      (tlsProcessCertVerify lib b) := by
  refine Blind.get_bind (fun _ => rfl) fun s => Blind.bind (blind_modify fun _ => rfl) fun _ => ?_
  refine Blind.bind blind_orThrow fun _ => Blind.bind blind_check fun _ => ?_
  refine Blind.bind blind_orThrow fun _ => Blind.bind (blind_modify fun _ => rfl) fun _ => ?_
  refine Blind.bind blind_orThrow fun _ => Blind.bind blind_orThrow fun _ => ?_
  refine Blind.bind blind_check fun _ => Blind.bind blind_check fun _ => ?_
  exact Blind.bind blind_orThrow fun _ => Blind.bind blind_check fun _ => blind_pure

/-- How a body that the server accepted can go on: behind the signature of a
CertificateVerify, in a ClientHello that is declined, and by the extensions of
a ClientHello that has none.  The driver limits the size of each message. -/
def ServerGoesOn (isv2 : Bool) (s : SSL X509 Pkey) (mt : MsgType) (b x : Bytes) : Prop :=
  (mt = .certificateVerify ∧ (b ++ x).length ≤ ssl3RtMaxPlainLength) ∨
    (mt = .clientHello ∧ (b ++ x).length ≤ 131396 ∧ (s.isFirstHandshake = false ∨
        (isv2 = false ∧ b ∈ clientHelloFields ∧ x ∈ extensionsBlock)))

/-- How a body that the client accepted can go on: by the extensions of a
ServerHello that has none. -/
def ClientGoesOn (mt : MsgType) (b x : Bytes) : Prop :=
  mt = .serverHello ∧ (b ++ x).length ≤ 65607 ∧ b ∈ serverHelloFields ∧ x ∈ extensionsBlock

theorem server_size (h : Accepts lib (server lib) s mt pkt ans) :
    (mt = .certificateVerify → pkt.length ≤ ssl3RtMaxPlainLength) ∧
      (mt = .clientHello → pkt.length ≤ 131396) := by
  obtain ⟨_, h⟩ := h
  obtain ⟨s₁, htran, hsize⟩ := readMessage_size h
  obtain ⟨hs, hnext, hs₁⟩ := server_readTransition_ok htran
  subst hs₁
  have hcases := serverReadTransition_ok hnext
  constructor
  · intro hmt
    subst hmt
    have hhs : hs = .srCertVrfy := by simp at hcases; exact hcases.1
    subst hhs
    exact hsize
  · intro hmt
    subst hmt
    have hhs : hs = .srClntHello := by simp at hcases; exact hcases.1
    subst hhs
    exact hsize

/-- A CertificateVerify is accepted with anything behind its signature. -/
theorem certVerify_goes_on (hdg : s.statem.handState = .srKeyExch → s.s3.handshakeDgst ≠ none)
    (h : Accepts lib (server lib) s .certificateVerify b ans)
    (hsize : (b ++ x).length ≤ ssl3RtMaxPlainLength) :
    Accepts lib (server lib) s .certificateVerify (b ++ x) ans := by
  refine accepts_other (by simp) (by simp [isHrr]) h ?_
  intro s₁ r t dg bf dg' bf' htran hbf hproc
  obtain ⟨hs, hnext, hs₁⟩ := server_readTransition_ok htran
  have hcases := serverReadTransition_ok hnext
  simp at hcases
  obtain ⟨hhs, hst, _⟩ := hcases
  subst hs₁ hhs
  have hbf := hbf (hdg hst)
  subst hbf
  have hproc' : (tlsProcessCertVerify lib b).run _ = .ok r t := hproc
  have hlong := tlsProcessCertVerify_suffix x hproc'
  have hagain := (blind_tlsProcessCertVerify dg').run _ _ _ hlong
  exact ⟨hsize, _, hagain⟩

/-- A ClientHello that is declined is not read, and another one may get the
extensions it does not have. -/
theorem tlsProcessClientHello_suffix
    (hon : s.isFirstHandshake = false ∨
      (ans.isv2 = false ∧ b ∈ clientHelloFields ∧ x ∈ extensionsBlock))
    (h : (tlsProcessClientHello ans b).run s = .ok r t) :
    (tlsProcessClientHello ans (b ++ x)).run s = .ok r t := by
  rw [tlsProcessClientHello, run_get_bind_ok] at h ⊢
  split at h
  · next hfirst =>
    simp only [hfirst, Bool.true_eq_false, false_or] at hon
    obtain ⟨hv2, hb, hx⟩ := hon
    rw [if_pos hfirst, run_lift_bind_ok]
    rw [run_lift_bind_ok] at h
    obtain ⟨hello, hparse, h⟩ := h
    have hparse : parseClientHello b = .ok hello := by simpa [hv2] using hparse
    refine ⟨hello, ?_, h⟩
    simpa [hv2] using parseClientHello_extended hparse hb hx
  · next hfirst =>
    rw [if_neg hfirst]
    exact h

theorem blind_tlsProcessClientHello (dg bf : Option Bytes) :
    Blind (fun s : SSL X509 Pkey => { s with
        s3.handshakeDgst := dg, s3.handshakeBuffer := bf }) (tlsProcessClientHello ans pkt) := by
  refine Blind.get_bind (fun _ => rfl) fun s => Blind.ite ?_ blind_pure
  refine Blind.bind blind_lift fun _ => Blind.bind blind_lift fun _ => ?_
  exact Blind.bind (blind_modify fun _ => rfl) fun _ => blind_pure

theorem clientHello_goes_on (h : Accepts lib (server lib) s .clientHello b ans)
    (hsize : (b ++ x).length ≤ 131396)
    (hon : s.isFirstHandshake = false ∨
      (ans.isv2 = false ∧ b ∈ clientHelloFields ∧ x ∈ extensionsBlock)) :
    Accepts lib (server lib) s .clientHello (b ++ x) ans := by
  refine accepts_other (by simp) (by simp [isHrr]) h ?_
  intro s₁ r t dg bf dg' bf' htran _ hproc
  obtain ⟨hs, hnext, hs₁⟩ := server_readTransition_ok htran
  have hcases := serverReadTransition_ok hnext
  simp at hcases
  obtain ⟨hhs, _⟩ := hcases
  subst hs₁ hhs
  have hproc' : (tlsProcessClientHello ans b).run _ = .ok r t := hproc
  have hlong := tlsProcessClientHello_suffix (x := x) (by exact hon) hproc'
  have hagain := (blind_tlsProcessClientHello dg' bf').run _ _ _ hlong
  exact ⟨hsize, _, hagain⟩

section client

variable {ans : ClientAnswers X509 Pkey}

/-- A ServerHello is not processed with the transcript. -/
theorem blind_tlsProcessServerHello (dg bf : Option Bytes) :
    Blind (fun s : SSL X509 Pkey => { s with
        s3.handshakeDgst := dg, s3.handshakeBuffer := bf }) (tlsProcessServerHello ans pkt) := by
  have hsecret : ∀ code, Blind (fun s : SSL X509 Pkey => { s with
      s3.handshakeDgst := dg, s3.handshakeBuffer := bf }) (useSessionSecret ans code) := by
    intro code
    refine Blind.get_bind (fun _ => rfl) fun s => Blind.onlyIf ?_
    exact Blind.bind blind_orThrow fun _ => blind_modify fun _ => rfl
  have hadopt : ∀ sid, Blind (fun s : SSL X509 Pkey => { s with
      s3.handshakeDgst := dg, s3.handshakeBuffer := bf }) (adoptSession sid) := by
    intro sid
    refine Blind.bind (blind_modify fun _ => rfl) fun _ => Blind.get_bind (fun _ => rfl) fun s => ?_
    refine Blind.ite blind_check (Blind.bind (blind_modify fun _ => rfl) fun _ => ?_)
    exact blind_modify fun _ => rfl
  have hcipher : ∀ code, Blind (fun s : SSL X509 Pkey => { s with
      s3.handshakeDgst := dg, s3.handshakeBuffer := bf }) (setClientCiphersuite ans code) := by
    intro code
    refine Blind.get_bind (fun _ => rfl) fun s => Blind.bind blind_check fun _ => ?_
    refine Blind.bind blind_orThrow fun _ => Blind.bind blind_check fun _ => ?_
    exact blind_modify fun _ => rfl
  refine Blind.bind blind_lift fun hello => Blind.bind (blind_modify fun _ => rfl) fun _ => ?_
  refine Blind.bind blind_lift fun _ => Blind.bind blind_check fun _ => ?_
  refine Blind.bind (blind_modify fun _ => rfl) fun _ => Blind.bind (hsecret _) fun _ => ?_
  refine Blind.bind (hadopt _) fun _ => Blind.get_bind (fun _ => rfl) fun s => ?_
  refine Blind.bind blind_check fun _ => Blind.bind (hcipher _) fun _ => ?_
  refine Blind.bind blind_check fun _ => Blind.get_bind (fun _ => rfl) fun s => ?_
  refine Blind.bind blind_check fun _ => Blind.bind blind_lift fun _ => ?_
  exact Blind.bind (blind_modify fun _ => rfl) fun _ => blind_pure

theorem client_size (h : Accepts lib (client lib) s .serverHello pkt ans) : pkt.length ≤ 65607 := by
  obtain ⟨_, h⟩ := h
  obtain ⟨s₁, htran, hsize⟩ := readMessage_size h
  obtain ⟨hs, hnext, hs₁⟩ := clientReadTransition_ok htran
  have hcases := clientReadNext_some hnext
  simp at hcases
  obtain ⟨hhs, _⟩ := hcases
  subst hs₁ hhs
  exact hsize

theorem length_serverHelloFields (h : b ∈ serverHelloFields) : 38 ≤ b.length := by
  obtain ⟨v, hv, r₁, h, hb⟩ := Language.mem_mul.mp h
  obtain ⟨rnd, hrnd, r₂, h, hr₁⟩ := Language.mem_mul.mp h
  obtain ⟨sid, hsid, r₃, h, hr₂⟩ := Language.mem_mul.mp h
  obtain ⟨cs, hcs, comp, hcomp, hr₃⟩ := Language.mem_mul.mp h
  rw [mem_fixed] at hv hrnd hcs hcomp
  obtain ⟨n, body, hsid, hn, _⟩ := hsid
  subst hb hr₁ hr₂ hr₃ hsid
  simp only [List.length_append, hv, hrnd, hn, hcs, hcomp, ssl3RandomSize]
  omega

/-- The random of a ServerHello is in its first 38 bytes. -/
theorem isHrr_suffix (hlen : 38 ≤ b.length) (x : Bytes) :
    isHrr .serverHello b ↔ isHrr .serverHello (b ++ x) := by
  have hdrop : (b ++ x).drop 2 = b.drop 2 ++ x := List.drop_append_of_le_length (by omega)
  have htake : (b.drop 2 ++ x).take ssl3RandomSize = (b.drop 2).take ssl3RandomSize :=
    List.take_append_of_le_length (by simp [ssl3RandomSize]; omega)
  simp only [isHrr, hdrop, htake, List.length_append]
  constructor
  · rintro ⟨hmt, _, hrandom⟩
    exact ⟨hmt, by simp [ssl3RandomSize]; omega, hrandom⟩
  · rintro ⟨hmt, _, hrandom⟩
    exact ⟨hmt, by simp [ssl3RandomSize]; omega, hrandom⟩

theorem tlsProcessServerHello_suffix (hb : b ∈ serverHelloFields) (hx : x ∈ extensionsBlock)
    (h : (tlsProcessServerHello ans b).run s = .ok r t) :
    (tlsProcessServerHello ans (b ++ x)).run s = .ok r t := by
  rw [tlsProcessServerHello, run_lift_bind_ok] at h ⊢
  obtain ⟨hello, hparse, h⟩ := h
  exact ⟨hello, parseServerHello_extended hparse hb hx, h⟩

theorem serverHello_goes_on (h : Accepts lib (client lib) s .serverHello b ans)
    (hsize : (b ++ x).length ≤ 65607) (hb : b ∈ serverHelloFields) (hx : x ∈ extensionsBlock) :
    Accepts lib (client lib) s .serverHello (b ++ x) ans := by
  refine accepts_other (by simp) (isHrr_suffix (length_serverHelloFields hb) x) h ?_
  intro s₁ r t dg bf dg' bf' htran _ hproc
  obtain ⟨hs, hnext, hs₁⟩ := clientReadTransition_ok htran
  have hcases := clientReadNext_some hnext
  simp at hcases
  obtain ⟨hhs, _⟩ := hcases
  subst hs₁ hhs
  have hproc' : (tlsProcessServerHello ans b).run _ = .ok r t := hproc
  have hlong := tlsProcessServerHello_suffix hb hx hproc'
  have hagain := (blind_tlsProcessServerHello dg' bf').run _ _ _ hlong
  exact ⟨hsize, _, hagain⟩

end client

/-! ## no trailing data -/

/-- **How a message of the client can go on**: exactly as `ServerGoesOn` says. -/
theorem server_rejects_longer (hdg : s.statem.handState = .srKeyExch → s.s3.handshakeDgst ≠ none)
    (h : Accepts lib (server lib) s mt b ans) (hx : x ≠ []) :
    (∀ ans' : ServerAnswers X509, ans'.isv2 = ans.isv2 →
        ¬ Accepts lib (server lib) s mt (b ++ x) ans') ↔
      ¬ ServerGoesOn ans.isv2 s mt b x := by
  constructor
  · intro hrej hon
    cases hon with
    | inl hverify =>
      obtain ⟨hmt, hsize⟩ := hverify
      subst hmt
      exact hrej ans rfl (certVerify_goes_on hdg h hsize)
    | inr hhello =>
      obtain ⟨hmt, hsize, hon⟩ := hhello
      subst hmt
      exact hrej ans rfl (clientHello_goes_on h hsize hon)
  · intro hno ans' hv2 hlong
    by_cases hverify : mt = .certificateVerify
    · exact hno (.inl ⟨hverify, (server_size hlong).1 hverify⟩)
    by_cases hhello : mt = .clientHello
    · have hsize := (server_size hlong).2 hhello
      cases hfirst : s.isFirstHandshake with
      | false => exact hno (.inr ⟨hhello, hsize, .inl hfirst⟩)
      | true =>
        have hb := server_accepts_layout h hverify fun _ => hfirst
        have hbx := server_accepts_layout hlong hverify fun _ => hfirst
        subst hhello
        rw [hv2] at hbx
        simp only [serverLayout, clientHelloLayout] at hb hbx
        cases hv : ans.isv2 with
        | true =>
          rw [hv, if_pos rfl] at hb hbx
          exact hx (prefixFree_framed 9 _ b x hb hbx)
        | false =>
          rw [hv, if_neg (by simp)] at hb hbx
          obtain ⟨hb, hext⟩ := prefixFree_clientHelloFields.mul_optional
            (prefixFree_prefixed 2) hb hbx hx
          exact hno (.inr ⟨rfl, hsize, .inr ⟨hv, hb, hext⟩⟩)
    · have hb := server_accepts_layout h hverify fun h => absurd h hhello
      have hbx := server_accepts_layout hlong hverify fun h => absurd h hhello
      rw [hv2] at hbx
      exact hx (prefixFree_serverLayout hverify (fun h => absurd h hhello) b x hb hbx)

/-- **How a message of the server can go on**: exactly as `ClientGoesOn` says. -/
theorem client_rejects_longer {ans : ClientAnswers X509 Pkey}
    (h : Accepts lib (client lib) s mt b ans) (hx : x ≠ []) :
    (∀ ans' : ClientAnswers X509 Pkey, ¬ Accepts lib (client lib) s mt (b ++ x) ans') ↔
      ¬ ClientGoesOn mt b x := by
  constructor
  · intro hrej hon
    obtain ⟨hmt, hsize, hb, hext⟩ := hon
    subst hmt
    exact hrej ans (serverHello_goes_on h hsize hb hext)
  · intro hno ans' hlong
    have hb := client_accepts_layout h
    have hbx := client_accepts_layout hlong
    by_cases hhello : mt = .serverHello
    · subst hhello
      obtain ⟨hb, hext⟩ := prefixFree_serverHelloFields.mul_optional
        (prefixFree_prefixed 2) hb hbx hx
      exact hno ⟨rfl, client_size hlong, hb, hext⟩
    · exact hx (prefixFree_clientLayout hhello b x hb hbx)

/-- A connection object that waits for a message, at any point of a run. -/
def Waits {Ans : Type} (lib : Libcrypto X509 Pkey) (m : Machine X509 Pkey Ans)
    (t : SSL X509 Pkey) : Prop :=
  t.statem.state = .reading ∧ t.statem.readState = .header ∧
    ∃ s es, s.inBefore ∧ Run.run (step lib m) s es = some t

/-- **No trailing data**: wherever a server or a client waits for a message,
every byte of a body that it accepts is in a field of the message, and the
body is rejected with anything behind it, unless it is one that can go on. -/
theorem no_trailing_data (lib : Libcrypto X509 Pkey) (t : SSL X509 Pkey) (mt : MsgType)
    (b x : Bytes) (hx : x ≠ []) :
    (∀ ans, Waits lib (server lib) t → Accepts lib (server lib) t mt b ans →
      (mt ≠ .certificateVerify → (mt = .clientHello → t.isFirstHandshake = true) →
        b ∈ serverLayout lib ans.isv2 t mt) ∧
      ((∀ ans' : ServerAnswers X509, ans'.isv2 = ans.isv2 →
          ¬ Accepts lib (server lib) t mt (b ++ x) ans') ↔ ¬ ServerGoesOn ans.isv2 t mt b x)) ∧
    (∀ ans, Waits lib (client lib) t → Accepts lib (client lib) t mt b ans →
      b ∈ clientLayout lib t mt ∧
      ((∀ ans' : ClientAnswers X509 Pkey, ¬ Accepts lib (client lib) t mt (b ++ x) ans') ↔
        ¬ ClientGoesOn mt b x)) := by
  constructor
  · intro ans hwaits h
    obtain ⟨hread, hheader, s, es, hs, hrun⟩ := hwaits
    have hinv : ServerInv t := (server_keeps lib).run hs meets_anyEvent hrun (.inl hread)
    exact ⟨server_accepts_layout h,
      server_rejects_longer (fun hst => hinv.digested hst hheader) h hx⟩
  · intro ans _ h
    exact ⟨client_accepts_layout h, client_rejects_longer h hx⟩

/-- Whether a program goes through. -/
def goesThrough {ε σ α : Type} : EStateM.Result ε σ α → Bool
  | .ok _ _ => true
  | .error _ _ => false

theorem accepts_of_goesThrough
    (h : goesThrough ((readMessage lib m mt pkt a).run s) = true) : Accepts lib m s mt pkt a := by
  cases hr : (readMessage lib m mt pkt a).run s with
  | ok u t => exact ⟨t, hr⟩
  | error e t => simp [hr, goesThrough] at h

/-- A ClientKeyExchange of the server's run and a ServerHello of the client's
have nothing behind them. -/
theorem no_trailing_data_plain : (∃ t b, Waits .plain (server .plain) t ∧
      Accepts .plain (server .plain) t .clientKeyExchange b {} ∧
      ¬ Accepts .plain (server .plain) t .clientKeyExchange (b ++ [7]) {}) ∧
    (∃ t b, Waits .plain (client .plain) t ∧ Accepts .plain (client .plain) t .serverHello b {} ∧
      ¬ Accepts .plain (client .plain) t .serverHello (b ++ [7]) {}) := by
  constructor
  · obtain ⟨t, hrun, hst, hheader, hread⟩ : ∃ t,
        Run.run (step .plain (server .plain)) (plainServer 3) (plainAuthRun.take 11) = some t ∧
        t.statem.state = .reading ∧ t.statem.readState = .header ∧
        goesThrough ((readMessage .plain (server .plain) .clientKeyExchange
          ([0, 48] ++ List.replicate 48 9) {}).run t) := by decide +kernel
    have hwaits : Waits .plain (server .plain) t :=
      ⟨hst, hheader, plainServer 3, plainAuthRun.take 11, ⟨rfl, rfl⟩, hrun⟩
    have hacc := accepts_of_goesThrough hread
    have hno := ((no_trailing_data .plain t .clientKeyExchange _ [7] (by simp)).1 {} hwaits
      hacc).2.mpr (by simp [ServerGoesOn])
    exact ⟨t, _, hwaits, hacc, hno {} rfl⟩
  · obtain ⟨t, hrun, hst, hheader, hread⟩ : ∃ t, Run.run (step .plain (client .plain)) plainClient
          [.enter, .write {}, .write {}] = some t ∧
        t.statem.state = .reading ∧ t.statem.readState = .header ∧
        goesThrough ((readMessage .plain (client .plain) .serverHello
          plainServerHello {}).run t) := by decide +kernel
    have hwaits : Waits .plain (client .plain) t := ⟨hst, hheader, plainClient, _, ⟨rfl, rfl⟩, hrun⟩
    have hacc := accepts_of_goesThrough hread
    have hext : ([7] : Bytes) ∉ extensionsBlock := by
      intro h
      obtain ⟨body, hget⟩ := mem_prefixed.mp h
      revert hget
      simp [getPrefixed, getUint, splitFront]
    have hno := ((no_trailing_data .plain t .serverHello _ [7] (by simp)).2 {} hwaits
      hacc).2.mpr (fun hon => hext hon.2.2.2)
    exact ⟨t, _, hwaits, hacc, hno {}⟩

/-- A CertificateVerify is accepted as it is, and with a byte behind its
signature. -/
theorem trailing_data : ∃ t, Waits .plain (server .plain) t ∧
      Accepts .plain (server .plain) t .certificateVerify [0, 1, 5] {} ∧
      Accepts .plain (server .plain) t .certificateVerify ([0, 1, 5] ++ [7]) {} := by
  obtain ⟨t, hrun, hst, hheader, hshort, hlong⟩ : ∃ t,
      Run.run (step .plain (server .plain)) (plainServer 3) (plainAuthRun.take 13) = some t ∧
      t.statem.state = .reading ∧ t.statem.readState = .header ∧
      goesThrough ((readMessage .plain (server .plain) .certificateVerify [0, 1, 5] {}).run t) ∧
      goesThrough ((readMessage .plain (server .plain) .certificateVerify
        ([0, 1, 5] ++ [7]) {}).run t) := by decide +kernel
  exact ⟨t, ⟨hst, hheader, plainServer 3, plainAuthRun.take 13, ⟨rfl, rfl⟩, hrun⟩,
    accepts_of_goesThrough hshort, accepts_of_goesThrough hlong⟩

end Tlcp
