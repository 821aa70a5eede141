import Tlcp.Lib.Feed
import Tlcp.Lib.Layout
import Tlcp.Ntls.ClientAuth

/-!
# Tlcp.Ntls.Reader

How the NTLS machines get their messages out of the record layer
(`tls_get_message_header_ntls`, `tls_get_message_body_ntls` and the loop of
`read_state_machine_ntls` around them).

The driver of `Tlcp.Ntls.Statem` reads a message in one event.  Here a reader
asks the record layer for as many bytes as it still needs of a header or of a
body, gets some of them or none, and keeps what it got in `init_buf` until it
is called again.  Records may end anywhere in a message, and a call may hand
over less than the record has.  Records without data are passed over, up to
`maxEmptyRecords` in a row (`Cut`).

```text
header:  type  length (3 bytes)      HelloRequest of length 0: dropped
body:    length bytes                then: transcript, processor
```

* `reading_ignores_cuts`: what is delivered and hashed is a function of the
  byte stream, and each message is hashed once, unless it is a ServerHello
  with the random of a HelloRetryRequest: that one is not hashed at all;
* `Reader.run_refines`: between two messages the reader is where the driver
  of `Tlcp.Ntls.Statem` is after the messages in the log.
-/

namespace Tlcp

open Octets Fallible Layout

variable {X509 Pkey Ans : Type}
variable {p : Pending} {bs : Bytes} {n : Nat}

/-! ## the record layer -/

/-- The types of the records that `ssl_read_bytes` hands out when it is asked
for handshake data: of any other type it makes an error itself, or nothing. -/
inductive RecordType where
  | handshake
  | changeCipherSpec
  deriving DecidableEq, Repr

/-- `SSL3_RECORD`: what is left of a record. -/
structure Record where
  type : RecordType
  data : Bytes
  sslv2 : Bool := false
  deriving DecidableEq, Repr

/-- `MAX_EMPTY_RECORDS` -/
def maxEmptyRecords : Nat := 32

/-- `SSL3_RT_MAX_PLAIN_LENGTH` -/
def maxPlainLength : Nat := 16384

/-- What a call of `ssl_read_bytes` comes to. -/
inductive ReadBytes where
  /-- it returns to the application without data -/
  | retry
  | fatal (e : Fatal)
  /-- the type of the record, the data, how much is left of the record if it is an
  SSLv2 one, and the records that are not read -/
  | data (ty : RecordType) (bs : Bytes) (v2 : Option Nat) (rrec : List Record)

/-- What is made of a record if `ccs` is made of a ChangeCipherSpec. -/
def Record.refused (r : Record) (ccs : Option Fatal) : Option Fatal :=
  if r.type = .changeCipherSpec then ccs else none

/-- `ssl_read_bytes` with the `ssl3_get_record` in it: up to `n` bytes of the
first record that has any.  Of those the transport lets through `avail`; if
this is none, the call returns without data.  `empty` is the number of records
without data that came before, and `ccs` what is made of a ChangeCipherSpec
record where there must be none: such a record without data is refused here,
one with data where the data is looked at. -/
def sslReadBytes (ccs : Option Fatal) (n avail : Nat) : Nat → List Record → ReadBytes
  | _, [] => .retry
  | empty, r :: rest =>
    if min n avail = 0 then .retry
    else if maxPlainLength < r.data.length then .fatal ⟨.recordOverflow, .dataLengthTooLong⟩
    else if r.data = [] then
      if maxEmptyRecords ≤ empty then .fatal ⟨.unexpectedMessage, .recordTooSmall⟩
      else match r.refused ccs with
        | some e => .fatal e
        | none => sslReadBytes ccs n avail (empty + 1) rest
    else
      let left := r.data.drop (min n avail)
      -- `RECORD_LAYER_is_sslv2_record` and `RECORD_LAYER_get_rrec_length` behind the read
      .data r.type (r.data.take (min n avail)) (if r.sslv2 then some left.length else none)
        (if left = [] then rest else { r with data := left } :: rest)

/-- What a list of records carries. -/
def streamOf (rrec : List Record) : List (RecordType × UInt8) :=
  rrec.flatMap fun r => r.data.map (r.type, ·)

theorem streamOf_cons (r : Record) (rest : List Record) :
    streamOf (r :: rest) = r.data.map (r.type, ·) ++ streamOf rest := rfl

/-- A record of SSL 3 and later that is not too long; a ChangeCipherSpec is one
byte. -/
structure Record.Plain (r : Record) : Prop where
  notV2 : r.sslv2 = false
  size : r.data.length ≤ maxPlainLength
  change : r.type = .changeCipherSpec → r.data.length = 1

theorem Record.plain_handshake {data : Bytes} (h : data.length ≤ maxPlainLength) :
    Record.Plain ⟨.handshake, data, false⟩ :=
  ⟨rfl, h, fun h => by contradiction⟩

/-- Behind `empty` records without data, there are nowhere more than
`maxEmptyRecords` of them in a row. -/
def fewEmpty : Nat → List Record → Prop
  | _, [] => True
  | empty, r :: rest =>
    if r.data = [] then empty < maxEmptyRecords ∧ fewEmpty (empty + 1) rest else fewEmpty 0 rest

/-- A stream as it may be cut into records. -/
structure Cut (rrec : List Record) : Prop where
  plain : ∀ r ∈ rrec, r.Plain
  few : fewEmpty 0 rrec

/-- Records that all have data. -/
theorem fewEmpty_of_data {rrec : List Record} (h : ∀ r ∈ rrec, r.data ≠ []) : fewEmpty 0 rrec := by
  induction rrec with
  | nil => trivial
  | cons r rest ih =>
    rw [fewEmpty, if_neg (h r List.mem_cons_self)]
    exact ih fun r' hr' => h r' (List.mem_cons_of_mem _ hr')

/-- A read took something: from the front of the stream, and what is left is cut
as before. -/
structure Taken (n : Nat) (rrec : List Record) (ty : RecordType) (bs : Bytes)
    (rrec' : List Record) : Prop where
  stream : streamOf rrec = bs.map (ty, ·) ++ streamOf rrec'
  ne : bs ≠ []
  length : bs.length ≤ n
  change : ty = .changeCipherSpec → bs.length = 1
  cut : Cut rrec'

/-- A read of the first record. -/
theorem Record.Plain.taken {r : Record} {rest : List Record} {k : Nat} (hr : r.Plain)
    (hne : r.data ≠ []) (hk : k ≠ 0) (hkn : k ≤ n) (hrest : Cut rest) :
    Taken n (r :: rest) r.type (r.data.take k)
      (if r.data.drop k = [] then rest else { r with data := r.data.drop k } :: rest) := by
  have hpos := List.length_pos_iff.mpr hne
  refine ⟨?_, ?_, ?_, fun hccs => ?_, ?_⟩
  · split
    · next hnil =>
      have hall : r.data.take k = r.data := by
        conv_rhs => rw [← List.take_append_drop k r.data, hnil, List.append_nil]
      rw [streamOf_cons, hall]
    · rw [streamOf_cons, streamOf_cons, ← List.append_assoc, ← List.map_append,
        List.take_append_drop]
  · intro hnil
    exact (List.take_eq_nil_iff.mp hnil).elim hk hne
  · rw [List.length_take]
    omega
  · rw [List.length_take, hr.change hccs]
    omega
  · split
    · exact hrest
    · next hleft =>
      refine ⟨fun r' hr' => ?_, ?_⟩
      · cases List.mem_cons.mp hr' with
        | inr hold => exact hrest.plain r' hold
        | inl hnew =>
          have hsize := hr.size
          have hlen := List.length_pos_iff.mpr hleft
          subst hnew
          rw [List.length_drop] at hlen
          refine ⟨hr.notV2, ?_, fun hccs => ?_⟩
          · rw [List.length_drop]
            omega
          · have := hr.change hccs
            omega
      · rw [fewEmpty, if_neg hleft]
        exact hrest.few

/-- **One read** of a stream that is cut as it may be: there is no data, or
nothing of it is let through, or some is taken. -/
theorem sslReadBytes_cut (ccs : Option Fatal) (n avail : Nat) {rrec : List Record} {empty : Nat}
    (hplain : ∀ r ∈ rrec, r.Plain) (hfew : fewEmpty empty rrec) :
    (sslReadBytes ccs n avail empty rrec = .retry ∧ (min n avail = 0 ∨ streamOf rrec = [])) ∨
      ∃ ty bs rrec', sslReadBytes ccs n avail empty rrec = .data ty bs none rrec' ∧
        Taken n rrec ty bs rrec' := by
  induction rrec generalizing empty with
  | nil => exact .inl ⟨rfl, .inr rfl⟩
  | cons r rest ih =>
    have hr := hplain r List.mem_cons_self
    have hrest : ∀ r' ∈ rest, r'.Plain := fun r' hr' => hplain r' (List.mem_cons_of_mem _ hr')
    rw [sslReadBytes]
    by_cases hpos : min n avail = 0
    · rw [if_pos hpos]
      exact .inl ⟨rfl, .inl hpos⟩
    rw [if_neg hpos, if_neg (Nat.not_lt.mpr hr.size)]
    by_cases hnil : r.data = []
    · -- a record without data is of handshake data, and is passed over
      rw [fewEmpty, if_pos hnil] at hfew
      have hpass : r.refused ccs = none := by
        refine if_neg fun hty => ?_
        have hone := hr.change hty
        rw [hnil] at hone
        contradiction
      have hstream : streamOf (r :: rest) = streamOf rest := by
        rw [streamOf_cons, hnil]
        rfl
      rw [if_pos hnil, if_neg (Nat.not_le.mpr hfew.1), hpass]
      rcases ih hrest hfew.2 with ⟨hretry, hwhy⟩ | ⟨ty, bs, rrec', hdata, htaken⟩
      · exact .inl ⟨hretry, hstream ▸ hwhy⟩
      · exact .inr ⟨ty, bs, rrec', hdata, hstream ▸ htaken.stream, htaken.ne, htaken.length,
          htaken.change, htaken.cut⟩
    · rw [fewEmpty, if_neg hnil] at hfew
      refine .inr ⟨_, _, _, ?_, hr.taken hnil hpos (Nat.min_le_left _ _) ⟨hrest, hfew⟩⟩
      rw [if_neg hnil, hr.notV2]
      rfl

/-! ## messages on the wire -/

/-- The type of a message by its first byte. -/
def MsgType.ofByte (b : UInt8) : MsgType := match b.toNat with
  | 0 => .helloRequest
  | 1 => .clientHello
  | 2 => .serverHello
  | 4 => .newSessionTicket
  | 11 => .certificate
  | 12 => .serverKeyExchange
  | 13 => .certificateRequest
  | 14 => .serverDone
  | 15 => .certificateVerify
  | 16 => .clientKeyExchange
  | 20 => .finished
  | 22 => .certificateStatus
  | 67 => .nextProto
  | _ => .other b

theorem MsgType.code_ofByte (b : UInt8) : (MsgType.ofByte b).code = b.toNat := by
  unfold MsgType.ofByte
  split <;> simp_all [MsgType.code]

theorem MsgType.ofByte_ne_change (b : UInt8) : MsgType.ofByte b ≠ .changeCipherSpec := by
  unfold MsgType.ofByte
  split <;> simp

/-- The header of a handshake message. -/
def messageHeader (mt : MsgType) (size : Nat) : Bytes := putUint 1 mt.code ++ putUint 3 size

theorem length_messageHeader (mt : MsgType) (size : Nat) : (messageHeader mt size).length = 4 := by
  simp [messageHeader]

theorem handshakeBytes_eq (mt : MsgType) (body : Bytes) :
    handshakeBytes mt body = messageHeader mt body.length ++ body :=
  rfl

/-- Four bytes are the header of the message that the reader makes of them. -/
theorem messageHeader_ofByte {p : Bytes} (h : p.length = 4) :
    messageHeader (.ofByte (p.headD 0)) (ofUint (p.drop 1)) = p := by
  cases p with
  | nil => simp at h
  | cons b bs =>
    have hbs : bs.length = 3 := by simpa using h
    have hfirst : putUint 1 b.toNat = [b] := by simpa [ofUint] using putUint_ofUint [b]
    have hlen : putUint 3 (ofUint bs) = bs := hbs ▸ putUint_ofUint bs
    simp [messageHeader, MsgType.code_ofByte, hfirst, hlen]

/-- What a peer can send as one message: a handshake message, or the
ChangeCipherSpec. -/
def IsMessage (mt : MsgType) (body : Bytes) : Prop :=
  (mt = .changeCipherSpec ∧ body = []) ∨ ((∃ b, mt = .ofByte b) ∧ body.length < 256 ^ 3)

/-- A message as the records carry it. -/
def wireOf (mt : MsgType) (body : Bytes) : List (RecordType × UInt8) :=
  if mt = .changeCipherSpec then [(.changeCipherSpec, 1)]
  else (handshakeBytes mt body).map (.handshake, ·)

theorem wireOf_change (body : Bytes) :
    wireOf .changeCipherSpec body = [(.changeCipherSpec, 1)] := rfl

theorem wireOf_ofByte (b : UInt8) (body : Bytes) : wireOf (.ofByte b) body =
      (messageHeader (.ofByte b) body.length).map (.handshake, ·) ++ body.map (.handshake, ·) := by
  rw [wireOf, if_neg (MsgType.ofByte_ne_change b), handshakeBytes_eq, List.map_append]

theorem messageHeader_inj {b c : UInt8} {m : Nat} (hm : m < 256 ^ 3) (hn : n < 256 ^ 3)
    (h : messageHeader (.ofByte b) m = messageHeader (.ofByte c) n) : b = c ∧ m = n := by
  obtain ⟨hcode, hlen⟩ := List.append_inj h (by simp)
  have hb : ofUint (putUint 1 b.toNat) = b.toNat := ofUint_putUint b.toNat_lt
  have hc : ofUint (putUint 1 c.toNat) = c.toNat := ofUint_putUint c.toNat_lt
  rw [MsgType.code_ofByte, MsgType.code_ofByte] at hcode
  have hbc : b.toNat = c.toNat := by rw [← hb, hcode, hc]
  have hmn : m = n := by rw [← ofUint_putUint hm, hlen, ofUint_putUint hn]
  exact ⟨UInt8.toNat_inj.mp hbc, hmn⟩

/-- A stream starts with at most one message. -/
theorem wireOf_split {mt mt' : MsgType} {body body' : Bytes} {x y : List (RecordType × UInt8)}
    (hm : IsMessage mt body) (hm' : IsMessage mt' body')
    (h : wireOf mt body ++ x = wireOf mt' body' ++ y) : (mt, body) = (mt', body') ∧ x = y := by
  have hhead : ∀ b n, ∃ a l, (messageHeader (.ofByte b) n).map (RecordType.handshake, ·) =
      (.handshake, a) :: l := by
    intro b n
    cases hp : messageHeader (.ofByte b) n with
    | nil => simpa [hp] using length_messageHeader (.ofByte b) n
    | cons a l => exact ⟨a, l.map (.handshake, ·), rfl⟩
  cases hm with
  | inl hccs =>
    obtain ⟨hmt, hbody⟩ := hccs
    subst hmt hbody
    cases hm' with
    | inl hccs' =>
      obtain ⟨hmt', hbody'⟩ := hccs'
      subst hmt' hbody'
      exact ⟨rfl, by simpa [wireOf_change] using h⟩
    | inr hhs' =>
      obtain ⟨⟨c, hc⟩, _⟩ := hhs'
      obtain ⟨a, l, hl⟩ := hhead c body'.length
      simp [hc, wireOf_change, wireOf_ofByte, hl] at h
  | inr hhs =>
    obtain ⟨⟨b, hb⟩, hlen⟩ := hhs
    subst hb
    cases hm' with
    | inl hccs' =>
      obtain ⟨a, l, hl⟩ := hhead b body.length
      simp [hccs'.1, wireOf_change, wireOf_ofByte, hl] at h
    | inr hhs' =>
      obtain ⟨⟨c, hc⟩, hlen'⟩ := hhs'
      subst hc
      rw [wireOf_ofByte, wireOf_ofByte, List.append_assoc, List.append_assoc] at h
      obtain ⟨hheader, hrest⟩ := List.append_inj h (by simp [length_messageHeader])
      have hheader' := List.map_injective_iff.mpr (Prod.mk_right_injective _) hheader
      obtain ⟨hbc, hsize⟩ := messageHeader_inj hlen hlen' hheader'
      obtain ⟨hbodies, hxy⟩ := List.append_inj hrest (by simp [hsize])
      have hbody := List.map_injective_iff.mpr (Prod.mk_right_injective _) hbodies
      exact ⟨by rw [hbc, hbody], hxy⟩

/-! ## the header and body readers -/

/-- What `tls_get_message_header_ntls` does with the bytes that a read gave. -/
inductive HeaderRead where
  /-- the loop reads on -/
  | more (initMsg : Bytes)
  /-- the message is dropped, and the next header is read -/
  | skipped (mt : MsgType)
  /-- there is a message; for an SSLv2 record the header is part of it -/
  | message (mt : MsgType) (size : Nat) (sslv2 : Bool) (initMsg : Bytes)
  | fatal (e : Fatal) (initMsg : Bytes)

/-- `tls_get_message_header_ntls`, after a read that gave `bs` behind the
`init_num` bytes of `initMsg`.  A server that is stateless
(`TLS1_FLAGS_STATELESS`) drops a ChangeCipherSpec before its ClientHello. -/
def tlsGetMessageHeader (s : SSL X509 Pkey) (stateless : Bool) (v2 : Option Nat)
    (initMsg : Bytes) : RecordType → Bytes → HeaderRead
  | .changeCipherSpec, bs =>
    if initMsg ≠ [] ∨ bs ≠ [1] then .fatal ⟨.unexpectedMessage, .badChangeCipherSpec⟩ initMsg
    else if s.statem.handState = .before ∧ stateless then .skipped .changeCipherSpec
    else .message .changeCipherSpec 1 false []
  | .handshake, bs =>
    let p := initMsg ++ bs
    if p.length < 4 then .more p
    else if s.server = false ∧ s.statem.handState ≠ .ok ∧ p = [0, 0, 0, 0] then
      .skipped .helloRequest
    else
      match v2 with
      | some left => .message (.ofByte (p.headD 0)) (left + 4) true p
      | none =>
        let l := ofUint (p.drop 1)
        if l > 2 ^ 31 - 1 - 4 then .fatal ⟨.illegalParameter, .excessiveMessageSize⟩ p
        else .message (.ofByte (p.headD 0)) l false []

/-- The end of `tls_get_message_body_ntls`, also for an SSLv2 record. -/
def getMessageBody (lib : Libcrypto X509 Pkey) (sslv2 : Bool) (mt : MsgType) (initMsg : Bytes) :
    Handshake X509 Pkey Unit :=
  if sslv2 then do
    onlyIf (mt = .finished) (ssl3TakeMac lib)
    ssl3FinishMac initMsg
  else tlsGetMessageBody lib mt initMsg

/-- What `read_state_machine_ntls` does between the header and the body. -/
def startMessage (m : Machine X509 Pkey Ans) (mt : MsgType) (size : Nat) :
    Handshake X509 Pkey Unit := do
  m.readTransition mt
  let s ← get
  check (size ≤ m.maxMessageSize s) ⟨.illegalParameter, .excessiveMessageSize⟩

/-- What `read_state_machine_ntls` does behind the body. -/
def processBody (m : Machine X509 Pkey Ans) (mt : MsgType) (body : Bytes) (ans : Ans) :
    Handshake X509 Pkey Unit := do
  let ret ← m.processMessage ans body
  record (.accepted mt body)
  modify (SSL.afterProcess ret)

/-- The driver reads a message in these three parts. -/
theorem readMessage_eq (lib : Libcrypto X509 Pkey) (m : Machine X509 Pkey Ans) (mt : MsgType)
    (body : Bytes) (ans : Ans) :
    readMessage lib m mt body ans = (do
      startMessage m mt (messageSize mt body)
      tlsGetMessageBody lib mt body
      processBody m mt body ans) := by
  simp only [readMessage, startMessage, processBody, bind_assoc]

/-- `s3.tmp.message_type` and `s3.tmp.message_size`, while the body is read. -/
structure Pending where
  mt : MsgType
  size : Nat
  sslv2 : Bool
  deriving DecidableEq, Repr

/-- A message that the reader got, with the transcript before and after the
reader was through with it. -/
structure Entry where
  mt : MsgType
  body : Bytes
  delivered : Bool
  before : Bytes
  after : Bytes
  deriving DecidableEq, Repr

/-- A connection object whose driver reads.  `initMsg` holds the `init_num`
bytes that were read of the header, or of the body of the pending message. -/
structure Reader (X509 Pkey : Type) where
  ssl : SSL X509 Pkey
  initMsg : Bytes := []
  pending : Option Pending := none
  log : List Entry := []

/-- What the reader does not decide: the answers to the processor of the
`i`-th message, and what the endpoint does from there until it reads again
(post-processing, its own flight). -/
structure Surroundings (X509 Pkey Ans : Type) where
  stateless : Bool := false
  ans : Nat → Ans
  between : Nat → SSL X509 Pkey → SSL X509 Pkey

open Reader

section reader

variable (lib : Libcrypto X509 Pkey) (m : Machine X509 Pkey Ans)
  (env : Surroundings X509 Pkey Ans) (r : Reader X509 Pkey)

/-- `READ_STATE_BODY`, up to the next read. -/
def Reader.bodyRead : Reader X509 Pkey := match r.pending with
  | none => r
  | some p =>
    if p.mt ≠ .changeCipherSpec ∧ r.initMsg.length < p.size then r
    else
      match (getMessageBody lib p.sslv2 p.mt r.initMsg).run r.ssl with
      | .error e s => { r with ssl := s.fail e }
      | .ok _ s =>
        let log := r.log ++ [⟨p.mt, r.initMsg, true, r.ssl.transcript, s.transcript⟩]
        match (processBody m p.mt r.initMsg (env.ans r.log.length)).run s with
        | .error e t => { ssl := t.fail e, log }
        | .ok _ t => { ssl := env.between r.log.length t, log }

/-- `READ_STATE_HEADER`, up to the next read. -/
def Reader.headerRead : HeaderRead → Reader X509 Pkey
  | .more initMsg => { r with initMsg }
  | .skipped mt =>
    { r with
      initMsg := []
      log := r.log ++ [⟨mt, [], false, r.ssl.transcript, r.ssl.transcript⟩] }
  | .fatal e initMsg => { r with ssl := r.ssl.fail e, initMsg }
  | .message mt size sslv2 initMsg =>
    match (startMessage m mt size).run r.ssl with
    | .error e s => { r with ssl := s.fail e, initMsg }
    | .ok _ s =>
      bodyRead lib m env { r with ssl := s, initMsg, pending := some ⟨mt, size, sslv2⟩ }

/-- What the record layer makes of a ChangeCipherSpec record where there must be
none: between another one and the Finished, and in a body, where
`tls_get_message_body_ntls` does not ask for the type of the record. -/
def Reader.refusesCcs : Option Fatal :=
  if r.ssl.s3.changeCipherSpec then some ⟨.unexpectedMessage, .dataBetweenCcsAndFinished⟩
  else if r.pending.isSome then some ⟨.unexpectedMessage, .ccsReceivedEarly⟩
  else none

/-- What follows a read that gave data. -/
def Reader.got (v2 : Option Nat) (ty : RecordType) (bs : Bytes) :
    Reader X509 Pkey :=
  match ty with
  | .changeCipherSpec =>
    match r.refusesCcs with
    | some e => { r with ssl := r.ssl.fail e }
    | none => r.headerRead lib m env
        (tlsGetMessageHeader r.ssl env.stateless v2 r.initMsg .changeCipherSpec bs)
  | .handshake =>
    match r.pending with
    | none => r.headerRead lib m env
        (tlsGetMessageHeader r.ssl env.stateless v2 r.initMsg .handshake bs)
    | some _ => bodyRead lib m env { r with initMsg := r.initMsg ++ bs }

/-- The driver is in a header or a body. -/
def Reader.reading : Prop :=
  r.ssl.statem.state = .reading ∧ r.ssl.statem.readState = .header

instance : DecidablePred (reading : Reader X509 Pkey → Prop) :=
  fun _ => inferInstanceAs (Decidable (_ ∧ _))

/-- How many bytes the reader asks for. -/
def Reader.request : Nat := match r.pending with
  | none => 4 - r.initMsg.length
  | some p => p.size - r.initMsg.length

/-- A call of `ssl_read_bytes` and what follows it up to the next one.  A call
without data returns to the application; when the driver is entered again it
is at the same call. -/
def Reader.call (avail : Nat) (x : List Record × Reader X509 Pkey) :
    List Record × Reader X509 Pkey :=
  if x.2.reading then
    match sslReadBytes x.2.refusesCcs x.2.request avail 0 x.1 with
    | .retry => x
    | .fatal e => (x.1, { x.2 with ssl := x.2.ssl.fail e })
    | .data ty bs v2 rrec => (rrec, x.2.got lib m env v2 ty bs)
  else x

/-- The reader, fed one byte. -/
def Reader.feed (i : RecordType × UInt8) : Reader X509 Pkey :=
  r.got lib m env none i.1 [i.2]

/-- The driver of a whole message, and what follows it. -/
def Surroundings.serve (s : SSL X509 Pkey) (i : Nat) (e : Entry) : SSL X509 Pkey :=
  if e.delivered then
    match (readMessage lib m e.mt e.body (env.ans i)).run s with
    | .ok _ t => env.between i t
    | .error e t => t.fail e
  else s

end reader

/-! ## what a byte does -/

/-- What was read of the message at hand. -/
def Reader.wire (r : Reader X509 Pkey) : List (RecordType × UInt8) := match r.pending with
  | none => r.initMsg.map (.handshake, ·)
  | some p => (messageHeader p.mt p.size).map (.handshake, ·) ++ r.initMsg.map (.handshake, ·)

/-- The type and size are those of a header. -/
structure Pending.Wf (p : Pending) : Prop where
  notV2 : p.sslv2 = false
  type : ∃ b, p.mt = .ofByte b
  size : p.size < 256 ^ 3

/-- There is something left to read of the header or of the body. -/
structure Reader.Fits (r : Reader X509 Pkey) : Prop where
  header : r.pending = none → r.initMsg.length < 4
  body : ∀ p, r.pending = some p → p.Wf ∧ r.initMsg.length < p.size

/-- The reader is at a message that started in the object `b`. -/
def Reader.At (m : Machine X509 Pkey Ans) (b : SSL X509 Pkey) (r : Reader X509 Pkey) : Prop :=
  match r.pending with
  | none => r.ssl = b
  | some p => (startMessage m p.mt p.size).run b = .ok () r.ssl

/-- What the log says of a message that was dropped or delivered. -/
structure Entry.Sound (stateless : Bool) (e : Entry) : Prop where
  message : IsMessage e.mt e.body
  dropped : e.delivered = false →
    e.body = [] ∧ (e.mt = .helloRequest ∨ (e.mt = .changeCipherSpec ∧ stateless = true))
  hashed : e.after = e.before ++
    if e.delivered ∧ e.mt ≠ .changeCipherSpec ∧ ¬ isHrr e.mt e.body then handshakeBytes e.mt e.body
    else []

section steps

variable {lib : Libcrypto X509 Pkey} {m : Machine X509 Pkey Ans}
  {env : Surroundings X509 Pkey Ans} {r : Reader X509 Pkey} {s t : SSL X509 Pkey}
  {u : Unit} {mt : MsgType} {body : Bytes}

/-- What a byte can do: it is kept, it ends a message, or it ends the
reading. -/
inductive Reader.Fed (m : Machine X509 Pkey Ans) (lib : Libcrypto X509 Pkey)
    (env : Surroundings X509 Pkey Ans) (r : Reader X509 Pkey) (i : RecordType × UInt8)
    (r' : Reader X509 Pkey) : Prop where
  | kept (hlog : r'.log = r.log) (hfits : r'.Fits) (hwire : r'.wire = r.wire ++ [i])
      (hat : ∀ b, r.At m b → r'.At m b)
  | logged (e : Entry) (hsound : e.Sound env.stateless) (hlog : r'.log = r.log ++ [e])
      (hwire : wireOf e.mt e.body = r.wire ++ [i]) (hpending : r'.pending = none)
      (hinit : r'.initMsg = []) (hat : ∀ b, r.At m b → r'.ssl = env.serve lib m b r.log.length e)
  | stopped (hlog : r'.log = r.log) (hstop : ¬ r'.reading)

theorem Reader.fail_not_reading {r : Reader X509 Pkey} {e : Fatal} (h : r.ssl = s.fail e) :
    ¬ r.reading := by
  intro hread
  rw [reading, h] at hread
  cases hread.1

/-- The end of the body reader adds a message to the transcript, except for a
ChangeCipherSpec and for what it takes for a HelloRetryRequest. -/
theorem tlsGetMessageBody_transcript (h : (tlsGetMessageBody lib mt body).run s = .ok u t) :
    t.transcript = s.transcript ++
      if mt ≠ .changeCipherSpec ∧ ¬ isHrr mt body then handshakeBytes mt body else [] := by
  obtain ⟨_, s₁, hmac, h⟩ := run_bind_ok.mp h
  have hs₁ : s₁.transcript = s.transcript := by
    cases run_onlyIf_ok.mp hmac with
    | inl htake =>
      obtain ⟨c, _, hs₁⟩ := ssl3TakeMac_ok htake.2
      rw [hs₁]
      rfl
    | inr hnone => rw [← hnone.2]
  cases run_onlyIf_ok.mp h with
  | inl hmac =>
    rw [if_pos hmac.1, ← hs₁]
    cases ssl3FinishMac_ok hmac.2 with
    | inl hd =>
      obtain ⟨d, hd, ht⟩ := hd
      simp [ht, SSL.transcript, hd]
    | inr hb =>
      obtain ⟨b, hd, hb, ht⟩ := hb
      simp [ht, SSL.transcript, hd, hb]
  | inr hnone => rw [if_neg hnone.1, ← hnone.2, hs₁, List.append_nil]

/-- The body is there: the message goes into the log, or the reading ends. -/
theorem Reader.bodyRead_complete (hp : r.pending = some p) (hv2 : p.sslv2 = false)
    (hdone : ¬ (p.mt ≠ .changeCipherSpec ∧ r.initMsg.length < p.size))
    (hsize : p.size = messageSize p.mt r.initMsg) (hmsg : IsMessage p.mt r.initMsg) :
    ((r.bodyRead lib m env).log = r.log ∧ ¬ (r.bodyRead lib m env).reading) ∨
      ∃ e : Entry, e.mt = p.mt ∧ e.body = r.initMsg ∧ e.Sound env.stateless ∧
        (r.bodyRead lib m env).log = r.log ++ [e] ∧ (r.bodyRead lib m env).pending = none ∧
        (r.bodyRead lib m env).initMsg = [] ∧
        ∀ b, r.At m b → (r.bodyRead lib m env).ssl = env.serve lib m b r.log.length e := by
  have hbody : ∀ b, r.At m b → (startMessage m p.mt p.size).run b = .ok () r.ssl := by
    intro b hb
    simpa [At, hp] using hb
  have hrun : r.bodyRead lib m env = match (tlsGetMessageBody lib p.mt r.initMsg).run r.ssl with
      | .error e s => { r with ssl := s.fail e }
      | .ok _ s =>
        let log := r.log ++ [⟨p.mt, r.initMsg, true, r.ssl.transcript, s.transcript⟩]
        match (processBody m p.mt r.initMsg (env.ans r.log.length)).run s with
        | .error e t => { ssl := t.fail e, log }
        | .ok _ t => { ssl := env.between r.log.length t, log } := by
    simp only [bodyRead, hp, if_neg hdone, hv2, getMessageBody, Bool.false_eq_true, if_false]
  cases hmac : (tlsGetMessageBody lib p.mt r.initMsg).run r.ssl with
  | error e s =>
    rw [hrun, hmac]
    exact .inl ⟨rfl, fail_not_reading rfl⟩
  | ok u s =>
    have hserve : ∀ b, r.At m b → (readMessage lib m p.mt r.initMsg (env.ans r.log.length)).run b =
          (processBody m p.mt r.initMsg (env.ans r.log.length)).run s := by
      intro b hb
      rw [readMessage_eq, EStateM.run_bind, ← hsize, hbody b hb]
      show EStateM.run (_ >>= _) r.ssl = _
      rw [EStateM.run_bind, hmac]
    have hsound : Entry.Sound env.stateless
        ⟨p.mt, r.initMsg, true, r.ssl.transcript, s.transcript⟩ := by
      refine ⟨hmsg, fun h => by simp at h, ?_⟩
      simpa using tlsGetMessageBody_transcript hmac
    refine .inr ⟨_, rfl, rfl, hsound, ?_⟩
    cases hproc : (processBody m p.mt r.initMsg (env.ans r.log.length)).run s with
    | error e t | ok u t =>
      rw [hrun, hmac]
      simp only [hproc]
      refine ⟨trivial, trivial, trivial, fun b hb => ?_⟩
      simp [Surroundings.serve, hserve b hb, hproc]

theorem Reader.wire_some (hp : r.pending = some p) :
    r.wire = (messageHeader p.mt p.size).map (.handshake, ·) ++ r.initMsg.map (.handshake, ·) := by
  simp [wire, hp]

theorem Reader.wire_none (hp : r.pending = none) : r.wire = r.initMsg.map (.handshake, ·) := by
  simp [wire, hp]

theorem Pending.Wf.ne_change (h : p.Wf) : p.mt ≠ .changeCipherSpec := by
  obtain ⟨b, hb⟩ := h.type
  rw [hb]
  exact MsgType.ofByte_ne_change b

/-- A byte that makes a message pending, or is of its body. -/
theorem Reader.fed_body {r₁ : Reader X509 Pkey} {i : RecordType × UInt8}
    (hp : r₁.pending = some p) (hwf : p.Wf) (hsize : r₁.initMsg.length ≤ p.size)
    (hlog : r₁.log = r.log) (hwire : r₁.wire = r.wire ++ [i]) (hat : ∀ b, r.At m b → r₁.At m b) :
    r.Fed m lib env i (r₁.bodyRead lib m env) := by
  have hne := hwf.ne_change
  by_cases hmore : r₁.initMsg.length < p.size
  · have hsame : r₁.bodyRead lib m env = r₁ := by
      simp only [bodyRead, hp]
      rw [if_pos ⟨hne, hmore⟩]
    rw [hsame]
    refine .kept hlog ⟨fun hnone => ?_, fun q hq => ?_⟩ hwire hat
    · rw [hp] at hnone
      contradiction
    · rw [hp] at hq
      injection hq with hq
      exact hq ▸ ⟨hwf, hmore⟩
  · have heq : p.size = r₁.initMsg.length := by omega
    have hmsg : IsMessage p.mt r₁.initMsg := .inr ⟨hwf.type, heq ▸ hwf.size⟩
    have hmessage : p.size = messageSize p.mt r₁.initMsg := by
      rw [messageSize, if_neg hne, heq]
    cases bodyRead_complete hp hwf.notV2 (fun h => hmore h.2) hmessage hmsg with
    | inl hstop => exact .stopped (hstop.1.trans hlog) hstop.2
    | inr hdone =>
      obtain ⟨e, hmt, hbody, hsound, hlog', hpend, hinit, hserve⟩ := hdone
      rw [hlog] at hlog' hserve
      refine .logged e hsound hlog' ?_ hpend hinit fun b hb => hserve b (hat b hb)
      obtain ⟨c, hc⟩ := hwf.type
      rw [hmt, hbody, ← hwire, wire_some hp, heq, hc, wireOf_ofByte]

/-- A ChangeCipherSpec that was not dropped. -/
theorem Reader.fed_change {r₁ : Reader X509 Pkey}
    (hp : r₁.pending = some ⟨.changeCipherSpec, 1, false⟩) (hinit : r₁.initMsg = [])
    (hlog : r₁.log = r.log) (hwire : r.wire = []) (hat : ∀ b, r.At m b → r₁.At m b) :
    r.Fed m lib env (.changeCipherSpec, 1) (r₁.bodyRead lib m env) := by
  have hsize : 1 = messageSize .changeCipherSpec r₁.initMsg := by simp [messageSize, hinit]
  cases bodyRead_complete hp rfl (fun h => h.1 rfl) hsize (.inl ⟨rfl, hinit⟩) with
  | inl hstop => exact .stopped (hstop.1.trans hlog) hstop.2
  | inr hdone =>
    obtain ⟨e, hmt, hbody, hsound, hlog', hpend, hinit', hserve⟩ := hdone
    rw [hlog] at hlog' hserve
    refine .logged e hsound hlog' ?_ hpend hinit' fun b hb => hserve b (hat b hb)
    rw [hmt, hwire]
    rfl

/-- A byte that ends a message that is dropped. -/
theorem Reader.fed_dropped {i : RecordType × UInt8} (hpend : r.pending = none)
    (hmsg : IsMessage mt [])
    (hmt : mt = .helloRequest ∨ (mt = .changeCipherSpec ∧ env.stateless = true))
    (hwire : wireOf mt [] = r.wire ++ [i]) :
    r.Fed m lib env i (r.headerRead lib m env (.skipped mt)) := by
  refine .logged ⟨mt, [], false, r.ssl.transcript, r.ssl.transcript⟩ ?_ rfl hwire hpend rfl ?_
  · exact ⟨hmsg, fun _ => ⟨rfl, hmt⟩, by simp⟩
  · intro b hb
    have hssl : r.ssl = b := by simpa [At, hpend] using hb
    simpa [Surroundings.serve, headerRead] using hssl

/-- Behind a header the transition is made, and the body may be empty. -/
theorem Reader.fed_started {i : RecordType × UInt8} {size : Nat}
    (hok : ∀ s, (startMessage m mt size).run r.ssl = .ok () s →
      r.Fed m lib env i (bodyRead lib m env
        { r with ssl := s, initMsg := [], pending := some ⟨mt, size, false⟩ })) :
    r.Fed m lib env i (r.headerRead lib m env (.message mt size false [])) := by
  simp only [headerRead]
  cases hrun : (startMessage m mt size).run r.ssl with
  | error e s => exact .stopped rfl (fail_not_reading rfl)
  | ok u s => exact hok s hrun

theorem Reader.pending_of_refusesCcs (h : r.refusesCcs = none) : r.pending = none := by
  unfold refusesCcs at h
  split at h
  · contradiction
  · split at h
    · contradiction
    · next hnone => simpa using hnone

theorem Reader.At.ssl_eq {b : SSL X509 Pkey} (hpend : r.pending = none) (h : r.At m b) :
    r.ssl = b := by
  simpa [At, hpend] using h

/-- The byte of a ChangeCipherSpec record. -/
theorem Reader.fed_feed_change (c : UInt8) :
    r.Fed m lib env (.changeCipherSpec, c) (r.feed lib m env (.changeCipherSpec, c)) := by
  unfold feed got
  cases hccs : r.refusesCcs with
  | some e => exact .stopped rfl (fail_not_reading rfl)
  | none =>
    have hpend := pending_of_refusesCcs hccs
    simp only [tlsGetMessageHeader]
    split
    · exact .stopped rfl (fail_not_reading rfl)
    · next hgood =>
      obtain ⟨hnil, hone⟩ := not_or.mp hgood
      have hinit : r.initMsg = [] := not_not.mp hnil
      have hc : c = 1 := by simpa using hone
      have hwire : r.wire = [] := by rw [wire_none hpend, hinit]; rfl
      subst hc
      split
      · next hdrop =>
        refine fed_dropped hpend (.inl ⟨rfl, rfl⟩) (.inr ⟨rfl, hdrop.2⟩) ?_
        rw [hwire]
        rfl
      · refine fed_started fun s hs => fed_change rfl rfl rfl hwire fun b hb => ?_
        rw [hb.ssl_eq hpend] at hs
        exact hs

/-- A byte of a handshake record. -/
theorem Reader.fed_feed_handshake (hfits : r.Fits) (c : UInt8) :
    r.Fed m lib env (.handshake, c) (r.feed lib m env (.handshake, c)) := by
  unfold feed got
  cases hpend : r.pending with
  | some p =>
    obtain ⟨hwf, hlt⟩ := hfits.body p hpend
    refine fed_body (p := p) rfl hwf ?_ rfl ?_ ?_
    · rw [List.length_append, List.length_singleton]
      omega
    · simp [wire, hpend]
    · intro b hb
      simpa [At, hpend] using hb
  | none =>
    have hlt := hfits.header hpend
    simp only [tlsGetMessageHeader]
    split
    · next hshort =>
      refine .kept rfl ⟨fun _ => hshort, fun p hp => ?_⟩ ?_ ?_
      · simp [headerRead, hpend] at hp
      · simp [wire, headerRead, hpend]
      · intro b hb
        simpa [At, headerRead, hpend] using hb.ssl_eq hpend
    · next hlong =>
      have hlen : (r.initMsg ++ [c]).length = 4 := by
        rw [List.length_append, List.length_singleton] at hlong ⊢
        omega
      have hheader := messageHeader_ofByte hlen
      have hwire : r.wire ++ [(.handshake, c)] = (r.initMsg ++ [c]).map (.handshake, ·) := by
        simp [wire, hpend]
      split
      · next hdrop =>
        refine fed_dropped hpend (.inr ⟨⟨0, rfl⟩, by simp⟩) (.inl rfl) ?_
        rw [hwire, hdrop.2.2]
        decide
      · have hl : ofUint ((r.initMsg ++ [c]).drop 1) < 256 ^ 3 := by
          have := ofUint_lt ((r.initMsg ++ [c]).drop 1)
          rwa [List.length_drop, hlen] at this
        rw [if_neg (by omega)]
        refine fed_started fun s hs => ?_
        refine fed_body rfl ⟨rfl, ⟨_, rfl⟩, hl⟩ (Nat.zero_le _) rfl ?_ ?_
        · simp only [wire]
          rw [hheader]
          simp [hpend]
        · intro b hb
          rw [hb.ssl_eq hpend] at hs
          exact hs

variable (lib m env) in
/-- **One byte**, whatever it does. -/
theorem Reader.fed_feed (hfits : r.Fits) (i : RecordType × UInt8) :
    r.Fed m lib env i (r.feed lib m env i) := by
  obtain ⟨ty, c⟩ := i
  cases ty with
  | changeCipherSpec => exact fed_feed_change c
  | handshake => exact fed_feed_handshake hfits c

/-! ## pieces -/

theorem Reader.headerRead_initMsg (x : Bytes) (h : HeaderRead) :
    headerRead lib m env { r with initMsg := x } h = r.headerRead lib m env h := by
  cases h <;> rfl

theorem Reader.got_append (a b : Bytes) : r.got lib m env none .handshake (a ++ b) =
      got lib m env { r with initMsg := r.initMsg ++ a } none .handshake b := by
  obtain ⟨ssl, initMsg, pending, log⟩ := r
  cases pending with
  | none =>
    simp only [got, tlsGetMessageHeader, List.append_assoc]
    exact (headerRead_initMsg (initMsg ++ a) _).symm
  | some p => simp only [got, List.append_assoc]

theorem Reader.request_none (hp : r.pending = none) : r.request = 4 - r.initMsg.length := by
  simp [request, hp]

theorem Reader.request_some (hp : r.pending = some p) : r.request = p.size - r.initMsg.length := by
  simp [request, hp]

/-- Before the last byte of a header or a body, bytes are only kept. -/
theorem Reader.got_short (hfits : r.Fits) (h : bs.length < r.request) :
    r.got lib m env none .handshake bs = { r with initMsg := r.initMsg ++ bs } := by
  obtain ⟨ssl, initMsg, pending, log⟩ := r
  cases pending with
  | none =>
    have h : bs.length < 4 - initMsg.length := h
    have hlen : (initMsg ++ bs).length < 4 := by
      rw [List.length_append]
      omega
    simp only [got, tlsGetMessageHeader, if_pos hlen]
    rfl
  | some p =>
    have h : bs.length < p.size - initMsg.length := h
    have hlen : (initMsg ++ bs).length < p.size := by
      rw [List.length_append]
      omega
    have hne := (hfits.body p rfl).1.ne_change
    simp only [got, bodyRead]
    rw [if_pos ⟨hne, hlen⟩]

theorem Reader.Fits.grow (hfits : r.Fits) (h : bs.length < r.request) :
    Fits { r with initMsg := r.initMsg ++ bs } := by
  constructor
  · intro hp
    have hp : r.pending = none := hp
    rw [request_none hp] at h
    rw [List.length_append]
    omega
  · intro p hp
    have hp : r.pending = some p := hp
    rw [request_some hp] at h
    refine ⟨(hfits.body p hp).1, ?_⟩
    rw [List.length_append]
    omega

theorem Reader.request_grow (bs : Bytes) :
    request { r with initMsg := r.initMsg ++ bs } = r.request - bs.length := by
  cases hp : r.pending with
  | none =>
    rw [request_none hp, request_none rfl, List.length_append]
    omega
  | some p =>
    rw [request_some hp, request_some rfl, List.length_append]
    omega

theorem Reader.Fits.request_pos (hfits : r.Fits) : 0 < r.request := by
  cases hp : r.pending with
  | none =>
    have := hfits.header hp
    rw [request_none hp]
    omega
  | some p =>
    have := (hfits.body p hp).2
    rw [request_some hp]
    omega

/-- **A piece is its bytes**: what follows a read is what follows its bytes one
by one, and before each of them the driver still reads. -/
theorem Reader.got_eq_foldl (hread : r.reading) (hfits : r.Fits) (hne : bs ≠ [])
    (hlen : bs.length ≤ r.request) :
    Feed.Smooth (feed lib m env) reading r (bs.map (.handshake, ·)) ∧
      (bs.map (RecordType.handshake, ·)).foldl (feed lib m env) r =
        r.got lib m env none .handshake bs := by
  induction bs generalizing r with
  | nil => contradiction
  | cons b bs ih =>
    cases bs with
    | nil => exact ⟨⟨hread, trivial⟩, rfl⟩
    | cons c bs =>
      have hshort : [b].length < r.request := by
        simp only [List.length_cons, List.length_nil] at hlen ⊢
        omega
      have hfeed : r.feed lib m env (.handshake, b) =
          { r with initMsg := r.initMsg ++ [b] } := got_short hfits hshort
      have hlen' : (c :: bs).length ≤ request { r with initMsg := r.initMsg ++ [b] } := by
        rw [request_grow]
        simp only [List.length_cons, List.length_nil] at hlen ⊢
        omega
      obtain ⟨hsmooth, hfold⟩ := ih (r := { r with initMsg := r.initMsg ++ [b] }) hread
        (hfits.grow hshort) (List.cons_ne_nil c bs) hlen'
      constructor
      · rw [List.map_cons]
        exact ⟨hread, hfeed ▸ hsmooth⟩
      · rw [List.map_cons, List.foldl_cons, hfeed, hfold, ← got_append]
        rfl

/-- The states of a reader and its record layer. -/
structure Reader.Ready (x : List Record × Reader X509 Pkey) : Prop where
  cut : Cut x.1
  fits : x.2.reading → x.2.Fits

theorem Reader.fits_feed (hfits : r.Fits) (i : RecordType × UInt8)
    (hread : (r.feed lib m env i).reading) : (r.feed lib m env i).Fits := by
  cases fed_feed lib m env hfits i with
  | kept _ hfits' _ _ => exact hfits'
  | logged e _ _ _ hpend hinit _ =>
    refine ⟨fun _ => by simp [hinit], fun p hp => ?_⟩
    rw [hpend] at hp
    contradiction
  | stopped _ hstop => exact absurd hread hstop

theorem Reader.fits_foldl {is : List (RecordType × UInt8)} (hfits : r.reading → r.Fits)
    (hsmooth : Feed.Smooth (feed lib m env) reading r is)
    (hread : (is.foldl (feed lib m env) r).reading) :
    (is.foldl (feed lib m env) r).Fits := by
  induction is generalizing r with
  | nil => exact hfits hread
  | cons i is ih => exact ih (fits_feed (hfits hsmooth.1) i) hsmooth.2 hread

variable (lib m env) in
/-- A call takes a smooth piece. -/
theorem Reader.call_takes (avail : Nat) {x : List Record × Reader X509 Pkey}
    (hx : Ready x) :
    Cut (call lib m env avail x).1 ∧
      ∃ piece, streamOf x.1 = piece ++ streamOf (call lib m env avail x).1 ∧
        Feed.Smooth (feed lib m env) reading x.2 piece ∧
        (call lib m env avail x).2 = piece.foldl (feed lib m env) x.2 ∧
        (0 < avail → x.2.reading → streamOf x.1 ≠ [] → piece ≠ []) := by
  obtain ⟨rrec, r⟩ := x
  have hcut : Cut rrec := hx.cut
  unfold call
  by_cases hread : r.reading
  · have hfits : r.Fits := hx.fits hread
    simp only [hread, if_true]
    rcases sslReadBytes_cut r.refusesCcs r.request avail hcut.plain hcut.few with
      ⟨hretry, hwhy⟩ | ⟨ty, bs, rrec', hdata, htaken⟩
    · rw [hretry]
      refine ⟨hcut, [], rfl, trivial, rfl, fun ha _ hne => ?_⟩
      have hpos := hfits.request_pos
      cases hwhy with
      | inl hzero => omega
      | inr hnil => exact absurd hnil hne
    · have hpiece : Feed.Smooth (feed lib m env) reading r (bs.map (ty, ·)) ∧
          (bs.map (ty, ·)).foldl (feed lib m env) r = r.got lib m env none ty bs := by
        cases ty with
        | handshake => exact got_eq_foldl hread hfits htaken.ne htaken.length
        | changeCipherSpec =>
          obtain ⟨b, hb⟩ := List.length_eq_one_iff.mp (htaken.change rfl)
          subst hb
          exact ⟨⟨hread, trivial⟩, rfl⟩
      rw [hdata]
      refine ⟨htaken.cut, bs.map (ty, ·), htaken.stream, hpiece.1, hpiece.2.symm, fun _ _ _ => ?_⟩
      simpa using htaken.ne
  · simp only [hread, if_false]
    exact ⟨hcut, [], rfl, trivial, rfl, fun _ h => h.elim⟩

variable (lib m env) in
theorem Reader.reads : Feed.Reads (feed lib m env) reading Ready streamOf
    (call lib m env) where
  keeps avail x hx := by
    obtain ⟨hcut, piece, _, hsmooth, hstate, _⟩ := call_takes lib m env avail hx
    refine ⟨hcut, fun hread => ?_⟩
    rw [hstate] at hread ⊢
    exact fits_foldl hx.fits hsmooth hread
  takes avail x hx := by
    obtain ⟨_, piece, hstream, hsmooth, hstate, _⟩ := call_takes lib m env avail hx
    exact ⟨piece, hstream, hsmooth, hstate⟩
  goesOn avail x hx ha hread hne := by
    obtain ⟨_, piece, hstream, _, _, hpos⟩ := call_takes lib m env avail hx
    have := List.length_pos_iff.mpr (hpos ha hread hne)
    rw [hstream, List.length_append]
    omega

/-! ## whole streams -/

/-- The driver of the messages in a log. -/
def Surroundings.serveAll (lib : Libcrypto X509 Pkey) (m : Machine X509 Pkey Ans)
    (env : Surroundings X509 Pkey Ans) : SSL X509 Pkey → Nat → List Entry → SSL X509 Pkey
  | s, _, [] => s
  | s, i, e :: es => serveAll lib m env (env.serve lib m s i e) (i + 1) es

theorem Surroundings.serveAll_concat (s : SSL X509 Pkey) (i : Nat) (es : List Entry) (e : Entry) :
    env.serveAll lib m s i (es ++ [e]) =
      env.serve lib m (env.serveAll lib m s i es) (i + es.length) e := by
  induction es generalizing s i with
  | nil => rfl
  | cons f es ih =>
    rw [List.cons_append, Surroundings.serveAll, ih, List.length_cons, Nat.add_right_comm]
    rfl

/-- What the reader made of the bytes `done` of a stream that it started to
read in the object `s`. -/
structure Reader.Accounts (lib : Libcrypto X509 Pkey) (m : Machine X509 Pkey Ans)
    (env : Surroundings X509 Pkey Ans) (s : SSL X509 Pkey)
    (done : List (RecordType × UInt8)) (r : Reader X509 Pkey) : Prop where
  sound : ∀ e ∈ r.log, e.Sound env.stateless
  wire : ∃ rest, done = r.log.flatMap (fun e => wireOf e.mt e.body) ++ rest ∧
    (r.reading → rest = r.wire)
  position : r.reading → r.At m (env.serveAll lib m s 0 r.log)

theorem Reader.Accounts.feed {done : List (RecordType × UInt8)} (h : r.Accounts lib m env s done)
    (hread : r.reading) (hfits : r.Fits) (i : RecordType × UInt8) :
    (r.feed lib m env i).Accounts lib m env s (done ++ [i]) := by
  obtain ⟨rest, hdone, hrest⟩ := h.wire
  rw [hrest hread] at hdone
  have hat := h.position hread
  cases fed_feed lib m env hfits i with
  | kept hlog _ hwire hat' =>
    refine ⟨hlog ▸ h.sound, ⟨_, ?_, fun _ => rfl⟩, fun _ => ?_⟩
    · rw [hlog, hdone, hwire, List.append_assoc]
    · rw [hlog]
      exact hat' _ hat
  | logged e hsound hlog hwire hpend hinit hat' =>
    refine ⟨?_, ⟨[], ?_, fun _ => ?_⟩, fun _ => ?_⟩
    · intro f hf
      rw [hlog, List.mem_append, List.mem_singleton] at hf
      cases hf with
      | inl hold => exact h.sound f hold
      | inr hnew => exact hnew ▸ hsound
    · rw [hlog, hdone, List.flatMap_append, List.append_assoc, ← hwire]
      simp
    · rw [wire_none hpend, hinit]
      rfl
    · rw [hlog, Surroundings.serveAll_concat, Nat.zero_add, ← hat' _ hat]
      simp [At, hpend]
  | stopped hlog hstop =>
    refine ⟨hlog ▸ h.sound, ⟨r.wire ++ [i], ?_, fun hr => absurd hr hstop⟩,
      fun hr => absurd hr hstop⟩
    rw [hlog, hdone, List.append_assoc]

theorem Reader.Accounts.foldl {done is : List (RecordType × UInt8)}
    (h : r.Accounts lib m env s done) (hfits : r.reading → r.Fits)
    (hsmooth : Feed.Smooth (Reader.feed lib m env) reading r is) :
    (is.foldl (Reader.feed lib m env) r).Accounts lib m env s (done ++ is) := by
  induction is generalizing r done with
  | nil => simpa using h
  | cons i is ih =>
    have hstep := h.feed hsmooth.1 (hfits hsmooth.1) i
    have := ih hstep (fits_feed (hfits hsmooth.1) i) hsmooth.2
    rwa [List.append_assoc] at this

/-- What was read of a message is less than any message. -/
theorem Reader.wire_ne (hfits : r.Fits) (hmsg : IsMessage mt body)
    (x : List (RecordType × UInt8)) : r.wire ≠ wireOf mt body ++ x := by
  intro h
  have htypes : ∀ i ∈ r.wire, i.1 = .handshake := by
    intro i hi
    unfold wire at hi
    split at hi
    · simp only [List.mem_map] at hi
      obtain ⟨_, _, hi⟩ := hi
      rw [← hi]
    · simp only [List.mem_append, List.mem_map] at hi
      obtain ⟨_, _, hi⟩ | ⟨_, _, hi⟩ := hi
      · rw [← hi]
      · rw [← hi]
  cases hmsg with
  | inl hccs =>
    rw [hccs.1, wireOf_change] at h
    have := htypes (.changeCipherSpec, 1) (by simp [h])
    contradiction
  | inr hhs =>
    obtain ⟨⟨b, hb⟩, hsize⟩ := hhs
    rw [hb, wireOf_ofByte, List.append_assoc] at h
    cases hp : r.pending with
    | none =>
      have hlen := congrArg List.length h
      have hlt := hfits.header hp
      rw [wire_none hp, List.length_append, List.length_map, List.length_map,
        length_messageHeader] at hlen
      omega
    | some p =>
      obtain ⟨hwf, hlt⟩ := hfits.body p hp
      obtain ⟨c, hc⟩ := hwf.type
      rw [wire_some hp, hc] at h
      obtain ⟨hheader, hrest⟩ := List.append_inj h (by simp [length_messageHeader])
      have hheader' := List.map_injective_iff.mpr (Prod.mk_right_injective _) hheader
      obtain ⟨_, heq⟩ := messageHeader_inj hwf.size hsize hheader'
      have hlen := congrArg List.length hrest
      rw [List.length_append, List.length_map, List.length_map] at hlen
      omega

theorem wireOf_ne_nil (mt : MsgType) (body : Bytes) : wireOf mt body ≠ [] := by
  unfold wireOf
  split
  · simp
  · simp [handshakeBytes, putUint]

end steps

/-- The bytes that a delivered message should add to the transcript: header and
body of a handshake message. -/
def Entry.bytes (e : Entry) : Bytes :=
  if e.delivered ∧ e.mt ≠ .changeCipherSpec then handshakeBytes e.mt e.body else []

/-- A connection object that reads from the records `rrec`, at the pace
`avails`. -/
def Reader.run (lib : Libcrypto X509 Pkey) (m : Machine X509 Pkey Ans)
    (env : Surroundings X509 Pkey Ans) (s : SSL X509 Pkey) (rrec : List Record)
    (avails : List Nat) : List Record × Reader X509 Pkey :=
  Feed.calls (call lib m env) avails (rrec, { ssl := s })

section run

variable (lib : Libcrypto X509 Pkey) (m : Machine X509 Pkey Ans)
  (env : Surroundings X509 Pkey Ans) (s : SSL X509 Pkey) (avails : List Nat)
  {rrec : List Record}

theorem Reader.ready_start (hrec : Cut rrec) :
    Ready (rrec, ({ ssl := s } : Reader X509 Pkey)) :=
  ⟨hrec, fun _ => ⟨fun _ => by simp, fun _ h => by contradiction⟩⟩

/-- What was made of the part of the stream that was read. -/
theorem Reader.run_accounts (hrec : Cut rrec) :
    ∃ done, streamOf rrec = done ++ streamOf (run lib m env s rrec avails).1 ∧
      (run lib m env s rrec avails).2.Accounts lib m env s done := by
  have hready := ready_start s hrec
  obtain ⟨done, hstream, hsmooth, hstate⟩ := (reads lib m env).takes_calls avails hready
  refine ⟨done, hstream, ?_⟩
  have hstart : Accounts lib m env s [] { ssl := s } :=
    ⟨fun e he => by contradiction, ⟨[], rfl, fun _ => rfl⟩, fun _ => rfl⟩
  have hend := hstart.foldl hready.fits hsmooth
  rw [← hstate] at hend
  exact hend

/-- **Refinement**: between two messages the reader is where the driver is
after the messages of its log; in a message, where the driver is behind the
transition for it. -/
theorem Reader.run_refines (hrec : Cut rrec)
    (hread : (run lib m env s rrec avails).2.reading) :
    (run lib m env s rrec avails).2.At m
      (env.serveAll lib m s 0 (run lib m env s rrec avails).2.log) := by
  obtain ⟨_, _, hacc⟩ := run_accounts lib m env s avails hrec
  exact hacc.position hread

/-- The messages of the log are the first ones of the stream, and all of them
when it is read to the end. -/
theorem Reader.run_log {msgs : List (MsgType × Bytes)} (hrec : Cut rrec)
    (hmsgs : ∀ x ∈ msgs, IsMessage x.1 x.2)
    (hcut : streamOf rrec = msgs.flatMap fun x => wireOf x.1 x.2) :
    (run lib m env s rrec avails).2.log.map (fun e => (e.mt, e.body)) <+: msgs ∧
      (streamOf (run lib m env s rrec avails).1 = [] →
        (run lib m env s rrec avails).2.reading →
        (run lib m env s rrec avails).2.log.map (fun e => (e.mt, e.body)) = msgs) := by
  have hready := (reads lib m env).keeps_calls avails
    (ready_start s hrec)
  obtain ⟨done, hstream, hacc⟩ := run_accounts lib m env s avails hrec
  obtain ⟨rest, hdone, hrest⟩ := hacc.wire
  have hlog : ∀ x ∈ (run lib m env s rrec avails).2.log.map (fun e => (e.mt, e.body)),
      IsMessage x.1 x.2 := by
    intro x hx
    obtain ⟨e, he, hex⟩ := List.mem_map.mp hx
    rw [← hex]
    exact (hacc.sound e he).message
  have hsplit : ((run lib m env s rrec avails).2.log.map (fun e => (e.mt, e.body))).flatMap
      (fun x => wireOf x.1 x.2) ++ (rest ++ streamOf (run lib m env s rrec avails).1) =
      msgs.flatMap fun x => wireOf x.1 x.2 := by
    rw [← hcut, hstream, hdone, List.flatMap_map, List.append_assoc]
  obtain ⟨more, hmore, hleft⟩ := flatMap_split
    (P := fun x : MsgType × Bytes => IsMessage x.1 x.2) (fun a b x y => wireOf_split)
    (fun a _ => wireOf_ne_nil a.1 a.2) hlog hmsgs hsplit
  refine ⟨⟨more, hmore.symm⟩, fun hnil hread => ?_⟩
  rw [hnil, List.append_nil, hrest hread] at hleft
  cases more with
  | nil => rw [hmore, List.append_nil]
  | cons x more =>
    have hx : IsMessage x.1 x.2 := hmsgs x (by simp [hmore])
    exact absurd hleft (wire_ne (hready.fits hread) hx _)

theorem Entry.Sound.bytes_iff {stateless : Bool} {e : Entry} (h : e.Sound stateless) :
    e.after = e.before ++ e.bytes ↔ ¬ isHrr e.mt e.body := by
  have hlen : handshakeBytes e.mt e.body ≠ [] := by simp [handshakeBytes, putUint]
  rw [h.hashed, Entry.bytes, List.append_cancel_left_eq]
  constructor
  · intro heq hhrr
    have hmt : e.mt ≠ .changeCipherSpec := by simp [hhrr.1]
    cases hd : e.delivered with
    | false =>
      have hdrop := (h.dropped hd).2
      simp [hhrr.1] at hdrop
    | true => simp [hd, hmt, hhrr, hlen.symm] at heq
  · intro hno
    simp [hno]

end run

/-- **Reading ignores how the stream is cut**: of the messages of a byte
stream, in whatever records and at whatever pace they come, the readers
deliver the first ones, in order and up to where the driver stops.  Where two
runs have read equally far, or both to the end, everything about them is the
same.  A HelloRequest that is dropped adds nothing to the transcript, and a
delivered message adds its header and body once, just if it is no ServerHello
with the random of a HelloRetryRequest. -/
theorem reading_ignores_cuts (lib : Libcrypto X509 Pkey) (m : Machine X509 Pkey Ans)
    (env : Surroundings X509 Pkey Ans) (s : SSL X509 Pkey) {msgs : List (MsgType × Bytes)}
    (hmsgs : ∀ x ∈ msgs, IsMessage x.1 x.2) {rrec rrec' : List Record} (avails avails' : List Nat)
    (hrec : Cut rrec) (hrec' : Cut rrec')
    (hcut : streamOf rrec = msgs.flatMap fun x => wireOf x.1 x.2)
    (hcut' : streamOf rrec' = msgs.flatMap fun x => wireOf x.1 x.2) :
    let out := run lib m env s rrec avails
    let out' := run lib m env s rrec' avails'
    ((streamOf out.1).length = (streamOf out'.1).length → out.2 = out'.2) ∧
    ((streamOf rrec).length ≤ avails.countP (0 < ·) →
      (streamOf rrec').length ≤ avails'.countP (0 < ·) → out.2 = out'.2) ∧
    out.2.log.map (fun e => (e.mt, e.body)) <+: msgs ∧
    ((streamOf rrec).length ≤ avails.countP (0 < ·) → out.2.reading →
      out.2.log.map (fun e => (e.mt, e.body)) = msgs) ∧
    ∀ e ∈ out.2.log, (e.delivered = false →
        e.body = [] ∧ (e.mt = .helloRequest ∨ (e.mt = .changeCipherSpec ∧ env.stateless = true))) ∧
      (e.after = e.before ++ e.bytes ↔ ¬ isHrr e.mt e.body) := by
  have hreads := reads lib m env
  have hready := ready_start s hrec
  have hready' := ready_start s hrec'
  have hsame : streamOf rrec = streamOf rrec' := hcut.trans hcut'.symm
  obtain ⟨hfront, hall⟩ := run_log lib m env s avails hrec hmsgs hcut
  obtain ⟨_, _, hacc⟩ := run_accounts lib m env s avails hrec
  refine ⟨fun hfar => hreads.agree hready hready' rfl hsame hfar,
    fun hend hend' => hreads.agree_end hready hready' rfl hsame hend hend', hfront,
    fun hend hread => ?_, fun e he => ⟨(hacc.sound e he).dropped, (hacc.sound e he).bytes_iff⟩⟩
  cases hreads.ends avails hready hend with
  | inl hidle => exact absurd hread hidle
  | inr hnil => exact hall hnil hread

/-- Nothing happens between the messages. -/
def plainSurroundings : Surroundings Bytes (String × Bytes) (ClientAnswers Bytes (String × Bytes))
    where
  ans _ := {}
  between _ s := s

/-- A HelloRequest and a ServerHello. -/
def plainStream : Bytes :=
  handshakeBytes .helloRequest [] ++ handshakeBytes .serverHello plainServerHello

/-- The stream in one record behind one without data. -/
def plainRecord : List Record := [⟨.handshake, [], false⟩, ⟨.handshake, plainStream, false⟩]

/-- The stream with each byte in a record of its own. -/
def plainBytes : List Record := plainStream.map fun b => ⟨.handshake, [b], false⟩

theorem cut_plainRecord : Cut plainRecord where
  plain r hr := by
    simp only [plainRecord, List.mem_cons, List.not_mem_nil, or_false] at hr
    cases hr with
    | inl h => exact h ▸ Record.plain_handshake (Nat.zero_le _)
    | inr h => exact h ▸ Record.plain_handshake (by decide)
  few := by simp [plainRecord, fewEmpty, maxEmptyRecords, plainStream, handshakeBytes, putUint]

theorem cut_plainBytes : Cut plainBytes where
  plain r hr := by
    obtain ⟨b, _, hb⟩ := List.mem_map.mp hr
    rw [← hb]
    exact Record.plain_handshake (by simp [maxPlainLength])
  few := by
    refine fewEmpty_of_data fun r hr => ?_
    obtain ⟨b, _, hb⟩ := List.mem_map.mp hr
    simp [← hb]

/-- A client that waits for a ServerHello. -/
def plainWaiting : Option (SSL Bytes (String × Bytes)) :=
  Run.run (step .plain (client .plain)) plainClient [.enter, .write {}, .write {}]

/-- The ServerHello is delivered byte by byte, and the client is where the driver
is behind it. -/
theorem run_refines_plainBytes :
    ∃ t r, plainWaiting = some t ∧
      run .plain (client .plain) plainSurroundings t plainBytes (List.replicate 60 1) =
        ([], r) ∧
      r.log.map (fun e => (e.mt, e.delivered)) = [(.helloRequest, false), (.serverHello, true)] ∧
      r.At (client .plain) (plainSurroundings.serveAll .plain (client .plain) t 0 r.log) := by
  obtain ⟨t, hwaits, hend⟩ : ∃ t, plainWaiting = some t ∧
      let out := run .plain (client .plain) plainSurroundings t plainBytes (List.replicate 60 1)
      out.1 = [] ∧ out.2.reading ∧ out.2.log.map (fun e => (e.mt, e.delivered)) =
        [(.helloRequest, false), (.serverHello, true)] := by decide +kernel
  have hat : ∀ rrec avails out, Cut rrec →
      run .plain (client .plain) plainSurroundings t rrec avails = out → out.2.reading →
      out.2.At (client .plain) (plainSurroundings.serveAll .plain (client .plain) t 0 out.2.log) := by
    intro rrec avails out hrec hout hread
    subst hout
    exact run_refines .plain (client .plain) plainSurroundings t avails hrec hread
  generalize hout : run .plain (client .plain) plainSurroundings t plainBytes
    (List.replicate 60 1) = out at hend
  obtain ⟨rrec, r⟩ := out
  obtain ⟨hnil, hread, hlog⟩ := hend
  dsimp only at hnil
  subst hnil
  exact ⟨t, r, hwaits, hout, hlog, hat _ _ _ cut_plainBytes hout hread⟩

/-- A client that waits for a ServerHello gets it behind a HelloRequest that it
drops, in one record or with each byte in a record of its own. -/
theorem reading_ignores_cuts_plain :
    ∃ t, plainWaiting = some t ∧
      let out := run .plain (client .plain) plainSurroundings t plainRecord
        (List.replicate 60 100)
      let out' := run .plain (client .plain) plainSurroundings t plainBytes
        (List.replicate 60 1)
      out.2 = out'.2 ∧ out.2.log.map (fun e => (e.mt, e.delivered)) =
          [(.helloRequest, false), (.serverHello, true)] ∧
        ∀ e ∈ out.2.log, e.after = e.before ++ e.bytes := by
  obtain ⟨t, hrun, hlog⟩ : ∃ t, plainWaiting = some t ∧
      (run .plain (client .plain) plainSurroundings t plainRecord
      (List.replicate 60 100)).2.log.map (fun e => (e.mt, e.delivered)) =
      [(.helloRequest, false), (.serverHello, true)] := by decide +kernel
  have hmsgs : ∀ x ∈ [(MsgType.helloRequest, ([] : Bytes)), (.serverHello, plainServerHello)],
      IsMessage x.1 x.2 := by
    intro x hx
    simp only [List.mem_cons, List.not_mem_nil, or_false] at hx
    cases hx with
    | inl h => exact h ▸ .inr ⟨⟨0, rfl⟩, by decide⟩
    | inr h => exact h ▸ .inr ⟨⟨2, rfl⟩, by decide⟩
  obtain ⟨_, hsame, hfront, _, hentries⟩ := reading_ignores_cuts .plain (client .plain)
    plainSurroundings t hmsgs (List.replicate 60 100) (List.replicate 60 1)
    cut_plainRecord cut_plainBytes (by decide +kernel) (by decide +kernel)
  refine ⟨t, hrun, hsame (by decide +kernel) (by decide +kernel), hlog, fun e he => ?_⟩
  have hmem := hfront.subset (List.mem_map_of_mem he)
  refine (hentries e he).2.mpr ?_
  simp only [List.mem_cons, List.not_mem_nil, or_false, Prod.mk.injEq] at hmem
  cases hmem with
  | inl h => exact not_isHrr e.body (by simp [h.1])
  | inr h =>
    rw [h.1, h.2]
    decide

/-- A ServerHello with the random of a HelloRetryRequest. -/
def retryServerHello : Bytes := plainServerHello.take 2 ++ hrrrandom ++ plainServerHello.drop 34

/-- A client takes a ServerHello with the random of a HelloRetryRequest for what
it is, processes it and reads on, but never adds it to the transcript. -/
theorem serverHello_not_hashed :
    ∃ t, plainWaiting = some t ∧
      let out := run .plain (client .plain) plainSurroundings t
        [⟨.handshake, handshakeBytes .serverHello retryServerHello, false⟩] [4, 100]
      out.2.reading ∧ out.2.pending = none ∧
        (.accepted .serverHello retryServerHello) ∈ out.2.ssl.trace ∧
        out.2.ssl.transcript = t.transcript ∧
        ∃ e ∈ out.2.log, e.delivered = true ∧ e.mt = .serverHello ∧
          e.after ≠ e.before ++ handshakeBytes e.mt e.body := by
  decide +kernel

end Tlcp
