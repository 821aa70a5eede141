import Tlcp.Ntls.Client

/-!
# Tlcp.Ntls.CipherList

The cipher list of the ClientHello.

`ssl_cipher_list_to_bytes` takes the room for the signalling values off the limit
first, writes the suites that are not disabled while there is room, and appends
the signalling values.  Suites and room come in units of two bytes, so the loop
writes a prefix of the enabled suites (`writeSuites_spec`).

The client machine runs only for `s->version == NTLS1_1_VERSION`, with a method
of that fixed version, so `ssl_get_min_max_version` gives this version twice; a
suite that is not disabled is then one for the maximum version
(`offers_of_enabled`), and the check at the end never fails for another reason
than an empty list.  Allocation failures of the packet are left out.
-/

namespace Tlcp.CipherList

open Octets

/-! ## the connection -/

/-- `SSL_PSK` -/
def pskMkey : Nat := 0x08 ||| 0x40 ||| 0x80 ||| 0x100

/-- `SSL_kSRP` -/
def srpMkey : Nat := 0x20

/-- What the function reads of a client: its version, the pending renegotiation,
the mode, what `ssl_set_sig_mask` disables, whether there is a callback for
pre-shared keys, the SRP methods, and the security callback for
`SSL_SECOP_CIPHER_SUPPORTED`. -/
structure Client where
  version : Nat
  version_eq : version = ntlsVersion
  renegotiate : Bool
  sendFallbackScsv : Bool
  sigMask : Nat
  pskClientCallback : Bool
  srpMask : Nat
  sslSecurity : SslCipher → Bool

namespace Client

variable (s : Client)

/-- `s->s3.tmp.mask_a` after `ssl_set_client_disabled` -/
def maskA : Nat := s.sigMask ||| (if s.pskClientCallback then 0 else Auth.aPSK) |||
    (if hasBit s.srpMask srpMkey then 0 else Auth.aSRP)

/-- `s->s3.tmp.mask_k` after `ssl_set_client_disabled` -/
def maskK : Nat :=
  (if s.pskClientCallback then 0 else pskMkey) ||| (if hasBit s.srpMask srpMkey then 0 else srpMkey)

/-- `ssl_get_min_max_version` for a method of a fixed version -/
def minMaxVersion : Nat × Nat := (s.version, s.version)

/-- `ssl_cipher_disabled` with `ecdhe` 0 -/
def sslCipherDisabled (c : SslCipher) : Bool := let (minVer, maxVer) := s.minMaxVersion
  hasBit c.algorithmMkey s.maskK ∨ hasBit c.algorithmAuth s.maskA ∨ maxVer = 0 ∨
    (c.minTls = ntlsVersion ∧ maxVer ≠ ntlsVersion) ∨ maxVer < c.minTls ∨ c.maxTls < minVer ∨
    ¬s.sslSecurity c

end Client

/-! ## the writer -/

/-- `SSL3_CK_CIPHERSUITE_FLAG` -/
def ciphersuiteFlag : Nat := 0x03000000

/-- `ssl3_put_cipher_by_char` -/
def putCipherByChar (id : Nat) : Bytes × Nat :=
  if id &&& 0xff000000 ≠ ciphersuiteFlag then ([], 0) else (putUint 2 (id &&& 0xffff), 2)

/-- The suites of the library's tables: their identifiers have the flag of a
suite with a two-byte code. -/
abbrev Suite := {c : SslCipher // c.id &&& 0xff000000 = ciphersuiteFlag}

/-- The variables of the loop. -/
structure Written where
  totlen : Nat
  maxverok : Bool
  pkt : Bytes

/-- The loop over the stack. -/
def writeSuites (s : Client) (maxlen : Nat) : List Suite → Written → Written
  | [], w => w
  | c :: sk, w =>
    if w.totlen < maxlen then
      if s.sslCipherDisabled c.1 then writeSuites s maxlen sk w
      else
        let (bytes, len) := putCipherByChar c.1.id
        let offers := s.minMaxVersion.2 ≤ c.1.maxTls ∧ c.1.minTls ≤ s.minMaxVersion.2
        writeSuites s maxlen sk ⟨w.totlen + len, w.maxverok || offers, w.pkt ++ bytes⟩
    else w

/-- The signalling values that the function appends. -/
def signalling (s : Client) : List Nat :=
  (if s.renegotiate then [] else [0x030000FF]) ++ (if s.sendFallbackScsv then [0x03005600] else [])

/-- What `SSLfatal_data` reports beside the alert and the reason. -/
abbrev Failure := Fatal × Option String

/-- `ssl_cipher_list_to_bytes` -/
def sslCipherListToBytes (s : Client) (sk : Option (List Suite)) : Except Failure Bytes :=
  match sk with
  | none => .error (⟨.internalError, .internalError⟩, none)
  | some sk =>
    let maxlen := 0xfffe - (if s.renegotiate then 0 else 2) - (if s.sendFallbackScsv then 2 else 0)
    let w := writeSuites s maxlen sk ⟨0, false, []⟩
    if w.totlen = 0 ∨ w.maxverok = false then
      .error (⟨.internalError, .noCiphersAvailable⟩,
        if w.maxverok then none else some "No ciphers enabled for max supported SSL/TLS version")
    else .ok (w.pkt ++ (signalling s).flatMap fun id => (putCipherByChar id).1)

/-! ## what is written -/

/-- The enabled suites, in the order of the stack. -/
def enabled (s : Client) (sk : Option (List Suite)) : List Suite :=
  (sk.getD []).filter fun c => ¬s.sslCipherDisabled c.1

/-- The two-byte code of a suite. -/
def code (c : Suite) : Bytes := putUint 2 (c.1.id &&& 0xffff)

@[simp] theorem length_code (c : Suite) : (code c).length = 2 := length_putUint 2 _

theorem putCipherByChar_suite (c : Suite) : putCipherByChar c.1.id = (code c, 2) :=
  if_neg (not_not.mpr c.2)

theorem length_codes (cs : List Suite) : (cs.flatMap code).length = 2 * cs.length := by
  induction cs with
  | nil => rfl
  | cons c cs ih =>
    rw [List.flatMap_cons, List.length_append, length_code, ih, List.length_cons]
    omega

/-- A suite that is not disabled is one for the only version of the client. -/
theorem offers_of_enabled {s : Client} {c : SslCipher} (h : s.sslCipherDisabled c = false) :
    s.minMaxVersion.2 ≤ c.maxTls ∧ c.minTls ≤ s.minMaxVersion.2 := by
  have h' := of_decide_eq_false h
  simp only [not_or, Nat.not_lt] at h'
  exact ⟨h'.2.2.2.2.2.1, h'.2.2.2.2.1⟩

/-- **The loop** writes the enabled suites from the front, one for every two bytes
of room. -/
theorem writeSuites_spec {s : Client} {maxlen : Nat} (sk : List Suite) {w : Written}
    (hroom : w.totlen ≤ maxlen) (heven : (maxlen - w.totlen) % 2 = 0) {suites : List Suite}
    (hsuites : suites = (enabled s (some sk)).take ((maxlen - w.totlen) / 2)) :
    writeSuites s maxlen sk w = ⟨w.totlen + 2 * suites.length,
      w.maxverok || decide (suites ≠ []), w.pkt ++ suites.flatMap code⟩ := by
  induction sk generalizing w suites with
  | nil =>
    subst hsuites
    simp [writeSuites, enabled]
  | cons c sk ih =>
    by_cases hlt : w.totlen < maxlen
    · cases hdis : s.sslCipherDisabled c.1 with
      | true =>
        have henabled : enabled s (some (c :: sk)) = enabled s (some sk) := by
          simp [enabled, hdis]
        rw [henabled] at hsuites
        rw [writeSuites, if_pos hlt, hdis]
        exact ih hroom heven hsuites
      | false =>
        -- one suite is written, and there is room for one less
        have henabled : enabled s (some (c :: sk)) = c :: enabled s (some sk) := by
          simp [enabled, hdis]
        obtain ⟨n, hn⟩ : ∃ n, (maxlen - w.totlen) / 2 = n + 1 :=
          ⟨(maxlen - w.totlen) / 2 - 1, by omega⟩
        have hrest := ih (w := ⟨w.totlen + 2, true, w.pkt ++ code c⟩) (by simp; omega)
          (by simp; omega) rfl
        have hn' : (maxlen - (w.totlen + 2)) / 2 = n := by omega
        have hoffers := offers_of_enabled hdis
        subst hsuites
        rw [writeSuites, if_pos hlt, hdis, henabled, hn, List.take_succ_cons]
        simp only [Bool.false_eq_true, if_false, putCipherByChar_suite, hoffers, and_self,
          decide_true, Bool.or_true, hrest, hn']
        simp
        omega
    · have hzero : (maxlen - w.totlen) / 2 = 0 := by omega
      rw [hzero, List.take_zero] at hsuites
      subst hsuites
      simp [writeSuites, hlt]

/-! ## the cipher list -/

/-- The number of suites that there is room for. -/
def room (s : Client) : Nat := 0x7fff - (signalling s).length

theorem length_signalling_le (s : Client) : (signalling s).length ≤ 2 := by
  unfold signalling
  split <;> split <;> simp

/-- The bytes of the signalling values. -/
theorem length_signals (s : Client) :
    ((signalling s).flatMap fun id => (putCipherByChar id).1).length = 2 * (signalling s).length := by
  unfold signalling
  split <;> split <;> rfl

theorem maxlen_eq (s : Client) :
    0xfffe - (if s.renegotiate then 0 else 2) - (if s.sendFallbackScsv then 2 else 0) =
      2 * room s := by
  unfold room signalling
  split <;> split <;> rfl

/-- The whole function, in terms of the enabled suites. -/
theorem sslCipherListToBytes_some (s : Client) (sk : List Suite) :
    sslCipherListToBytes s (some sk) = if enabled s (some sk) = [] then
        .error (⟨.internalError, .noCiphersAvailable⟩,
          some "No ciphers enabled for max supported SSL/TLS version")
      else .ok (((enabled s (some sk)).take (room s)).flatMap code ++
        (signalling s).flatMap fun id => (putCipherByChar id).1) := by
  have hpos : 0 < room s := by
    have := length_signalling_le s
    unfold room
    omega
  obtain ⟨suites, hsuites⟩ : ∃ suites, suites = (enabled s (some sk)).take (room s) := ⟨_, rfl⟩
  have hloop : writeSuites s (2 * room s) sk ⟨0, false, []⟩ =
      ⟨0 + 2 * suites.length, false || decide (suites ≠ []), [] ++ suites.flatMap code⟩ := by
    refine writeSuites_spec sk (Nat.zero_le _) (by simp) ?_
    rw [hsuites, Nat.sub_zero, Nat.mul_div_cancel_left _ (by decide)]
  have hnil : suites = [] ↔ enabled s (some sk) = [] := by
    rw [hsuites, List.take_eq_nil_iff, or_iff_right (by omega)]
  simp only [sslCipherListToBytes, maxlen_eq, hloop, ← hnil, ← hsuites]
  cases suites with
  | nil => rfl
  | cons c cs => simp

/-- **The cipher list.**  It is the codes of a prefix of the enabled suites, in the
order of the stack, and the signalling values; it fits its length field, and a
suite is left out only if the field is full.  The function fails exactly if no
suite is enabled. -/
theorem cipherList_encoding (s : Client) (sk : Option (List Suite)) :
    (∀ out, sslCipherListToBytes s sk = .ok out → ∃ n, out = ((enabled s sk).take n).flatMap code ++
        (signalling s).flatMap (fun id => (putCipherByChar id).1) ∧
      out.length ≤ 0xfffe ∧ (n < (enabled s sk).length → out.length = 0xfffe)) ∧
    ((∃ e, sslCipherListToBytes s sk = .error e) ↔ enabled s sk = []) := by
  cases sk with
  | none => exact ⟨nofun, iff_of_true ⟨_, rfl⟩ rfl⟩
  | some sk =>
    have hsig := length_signalling_le s
    rw [sslCipherListToBytes_some]
    split
    · next hnil => exact ⟨nofun, iff_of_true ⟨_, rfl⟩ hnil⟩
    · next hnil =>
      refine ⟨?_, iff_of_false (by simp) hnil⟩
      intro out hout
      obtain rfl := Except.ok.inj hout
      refine ⟨room s, rfl, ?_, fun hlt => ?_⟩
      · rw [List.length_append, length_codes, length_signals, List.length_take]
        unfold room
        omega
      · rw [List.length_append, length_codes, length_signals, List.length_take]
        unfold room at *
        omega

/-- An NTLS suite is one of the table. -/
def ofNtls (c : NtlsCipher) : Suite := ⟨c.1, by
    have h : ∀ c ∈ ntlsCiphers, c.id &&& 0xff000000 = ciphersuiteFlag := by decide
    exact h c.1 c.2⟩

/-- A client of a first handshake that retries with a lower version; its security
callback refuses the suites with RSA keys. -/
def fallback : Client :=
  ⟨ntlsVersion, rfl, false, true, 0, false, 0, fun c => !hasBit c.algorithmAuth Auth.aRSA⟩

/-- Of the twelve suites of the table, the eight without RSA keys are written, and
both signalling values. -/
theorem cipherList_encoding_fallback : ∃ n,
    [0xE0, 0x11, 0xE0, 0x51, 0xE0, 0x13, 0xE0, 0x53, 0xE0, 0x1D, 0xE0, 0x1B, 0xE0, 0x63, 0xE0, 0x65,
        0x00, 0xFF, 0x56, 0x00] =
      ((enabled fallback (some (ntlsCiphers.attach.map ofNtls))).take n).flatMap code ++
        (signalling fallback).flatMap (fun id => (putCipherByChar id).1) := by
  obtain ⟨n, hn, -⟩ := (cipherList_encoding fallback (some (ntlsCiphers.attach.map ofNtls))).1 _ rfl
  exact ⟨n, hn⟩

/-- **The list of the endpoint model**: for a stack of NTLS suites that are all
enabled and fit, the function writes what the client of the handshake sends. -/
theorem sslCipherListToBytes_ntls (s : Client) (cs : List NtlsCipher) (hne : cs ≠ [])
    (henabled : ∀ c ∈ cs, s.sslCipherDisabled c.1 = false) (hfit : cs.length ≤ room s) :
    sslCipherListToBytes s (some (cs.map ofNtls)) =
      .ok (Tlcp.sslCipherListToBytes cs s.renegotiate s.sendFallbackScsv) := by
  have hall : enabled s (some (cs.map ofNtls)) = cs.map ofNtls := by
    refine List.filter_eq_self.mpr fun c hc => ?_
    obtain ⟨d, hd, rfl⟩ := List.mem_map.mp hc
    simpa [ofNtls] using henabled d hd
  have hid : ∀ c : NtlsCipher, code (ofNtls c) = putUint 2 c.1.id := by
    intro c
    have h : ∀ c ∈ ntlsCiphers, putUint 2 (c.id &&& 0xffff) = putUint 2 c.id := by decide
    exact h c.1 c.2
  have hsig : (signalling s).flatMap (fun id => (putCipherByChar id).1) =
      (if s.renegotiate then [] else putUint 2 scsv) ++
        (if s.sendFallbackScsv then putUint 2 fallbackScsv else []) := by
    unfold signalling
    split <;> split <;> rfl
  rw [sslCipherListToBytes_some, hall, if_neg (by simpa using hne),
    List.take_of_length_le (by simpa using hfit), hsig, List.flatMap_map]
  simp [Tlcp.sslCipherListToBytes, hid, List.flatMap]

/-- The suites of the table are all enabled for a client without a callback of its
own. -/
theorem sslCipherListToBytes_ntls_all :
    sslCipherListToBytes ⟨ntlsVersion, rfl, false, true, 0, false, 0, fun _ => true⟩
        (some (ntlsCiphers.attach.map ofNtls)) =
      .ok (Tlcp.sslCipherListToBytes ntlsCiphers.attach false true) :=
  sslCipherListToBytes_ntls _ ntlsCiphers.attach (by decide) (by decide) (by decide)

end Tlcp.CipherList
