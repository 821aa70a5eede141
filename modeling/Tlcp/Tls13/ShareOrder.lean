import Tlcp.Tls13.Hybrid
import Tlcp.Tls13.HybridFlow

/-!
# Tlcp.Tls13.ShareOrder

Which lists of shares a hybrid server accepts, and how far their order matters.

The loop of `tls_parse_ctos_key_share` treats two kinds of entries apart.  The
Kyber768 entries are checked wherever they stand.  Of the others only those up to
the first SM2 entry are looked at: behind it the loop verifies the structure and
nothing else.

* `parseShares_found`, `parseShares_sm2` are the loop behind and in front of the
  SM2 entry, as an induction on the entries;
* `tlsParseCtosKeyShare_offer` says which lists are accepted, and with what.
-/

namespace Tlcp.Tls13

open Octets Fallible

variable {X509 Pkey : Type} {lib : Libcrypto X509 Pkey} {env : GroupTable Pkey}
  {s t : ShareConn Pkey}
variable {es : List KeyShareEntry} {e : KeyShareEntry} {fuel : Nat} {found foundKyber : Bool}
  {held kept : Option (Buf 1184)} {peer : Pkey} {pkt : Bytes}

/-! ## entries -/

/-- A `KeyShareEntry` -/
structure KeyShareEntry where
  group : Nat
  share : Bytes
deriving DecidableEq

namespace KeyShareEntry

/-- The group is a 16-bit number and the share a non-empty string below 64 KiB. -/
def WellFormed (e : KeyShareEntry) : Prop := e.group < 65536 ∧ e.share ≠ [] ∧ e.share.length < 65536

/-- An entry on the wire. -/
def bytes (e : KeyShareEntry) : Bytes := putUint 2 e.group ++ (putUint 2 e.share.length ++ e.share)

theorem bytes_ne_nil (e : KeyShareEntry) (rest : Bytes) : e.bytes ++ rest ≠ [] := by
  intro hnil
  have hlen := congrArg List.length hnil
  simp [bytes] at hlen

end KeyShareEntry

/-- The entries of a list on the wire. -/
def shareList (es : List KeyShareEntry) : Bytes := es.flatMap KeyShareEntry.bytes

@[simp] theorem shareList_nil : shareList [] = [] := rfl

@[simp] theorem shareList_cons (e : KeyShareEntry) (es : List KeyShareEntry) :
    shareList (e :: es) = e.bytes ++ shareList es := rfl

/-- The data of the extension parses completely into the entries. -/
structure Lists (pkt : Bytes) (es : List KeyShareEntry) : Prop where
  wellFormed : ∀ e ∈ es, e.WellFormed
  length_lt : (shareList es).length < 65536
  data : pkt = putUint 2 (shareList es).length ++ shareList es

/-- The shares of the Kyber768 entries. -/
def kyberShares (es : List KeyShareEntry) : List Bytes :=
  (es.filter fun e => e.group == kyber768Group).map KeyShareEntry.share

/-- The share of the first SM2 entry. -/
def firstSm2 (es : List KeyShareEntry) : Option Bytes :=
  (es.find? fun e => e.group == curveSM2).map KeyShareEntry.share

/-- The entries in front of the first SM2 entry. -/
def frontEntries (es : List KeyShareEntry) : List KeyShareEntry :=
  es.takeWhile fun e => e.group != curveSM2

/-! ## the loop, entry by entry -/

/-- One entry off the list. -/
theorem parseShares_entry {rest : Bytes}
    (he : e.WellFormed) :
    (parseShares lib env (fuel + 1) (e.bytes ++ rest) found foundKyber).run s =
      (if s.ctxHybrid = true ∧ e.group = kyber768Group then do
        parseKyberShare env e.share
        parseShares lib env fuel rest found true
      else if found then parseShares lib env fuel rest found foundKyber
      else do
        let found ← parseShare lib env e.group e.share (!rest.isEmpty)
        parseShares lib env fuel rest found foundKyber).run s := by
  obtain ⟨hgroup, hshare, hlen⟩ := he
  obtain ⟨b, bs, hlist⟩ := List.exists_cons_of_ne_nil (e.bytes_ne_nil rest)
  have hget : getUint 2 (b :: bs) =
      some (e.group, putUint 2 e.share.length ++ (e.share ++ rest)) := by
    rw [getUint_eq_some_iff, ← hlist]
    exact ⟨by simp [KeyShareEntry.bytes], hgroup⟩
  have hbody : getPrefixed 2 (putUint 2 e.share.length ++ (e.share ++ rest)) =
      some (e.share, rest) :=
    getPrefixed_eq_some_iff.mpr ⟨rfl, hlen⟩
  rw [hlist, parseShares, hget]
  simp only [orThrow, pure_bind, hbody, check, if_pos hshare]
  rfl

/-- What the loop takes is a list of entries. -/
theorem parseShares_entries {list : Bytes} {r : Bool × Bool}
    (h : (parseShares lib env fuel list found foundKyber).run s = .ok r t) :
    ∃ es, list = shareList es ∧ es.length ≤ fuel ∧ ∀ e ∈ es, e.WellFormed := by
  induction fuel generalizing s list found foundKyber with
  | zero =>
    cases list with
    | nil => exact ⟨[], rfl, le_rfl, by simp⟩
    | cons b bs => exact (run_throw_ok.mp h).elim
  | succ fuel ih =>
    cases list with
    | nil => exact ⟨[], rfl, Nat.zero_le _, by simp⟩
    | cons b bs =>
      rw [parseShares, run_orThrow_bind_ok] at h
      obtain ⟨⟨groupId, pkt⟩, hget, h⟩ := h
      rw [run_orThrow_bind_ok] at h
      obtain ⟨⟨encodedPt, rest⟩, hbody, h⟩ := h
      rw [run_check_bind_ok, run_get_bind_ok] at h
      obtain ⟨hpt, h⟩ := h
      obtain ⟨hlist, hgroup⟩ := getUint_eq_some_iff.mp hget
      obtain ⟨hpkt, hlen⟩ := getPrefixed_eq_some_iff.mp hbody
      have hrest : ∃ es, rest = shareList es ∧ es.length ≤ fuel ∧ ∀ e ∈ es, e.WellFormed := by
        split at h
        · obtain ⟨_, _, _, h⟩ := run_bind_ok.mp h
          exact ih h
        · split at h
          · exact ih h
          · obtain ⟨_, _, _, h⟩ := run_bind_ok.mp h
            exact ih h
      obtain ⟨es, hes, hfuel, hwf⟩ := hrest
      refine ⟨⟨groupId, encodedPt⟩ :: es, ?_, by simpa using hfuel, ?_⟩
      · simp [hlist, hpkt, hes, KeyShareEntry.bytes]
      · intro e he
        rcases List.mem_cons.mp he with rfl | he
        · exact ⟨hgroup, hpt, hlen⟩
        · exact hwf e he

/-! ## the Kyber768 entries -/

theorem checkInList_false_iff {group : Nat} {groups : List Nat} :
    checkInList env group groups false = true ↔ group ∈ groups := by
  simp [checkInList]

theorem checkInList_true_iff {group : Nat} {groups : List Nat} :
    checkInList env group groups true = true ↔ group ∈ groups ∧ env.checked group = true := by
  simp only [checkInList, Bool.not_true, Bool.false_or, List.any_eq_true, Bool.and_eq_true,
    beq_iff_eq]
  constructor
  · rintro ⟨_, hmem, rfl, hchecked⟩
    exact ⟨hmem, hchecked⟩
  · exact fun h => ⟨group, h.1, rfl, h.2⟩

/-- The server holds a Kyber768 key. -/
def ShareConn.keep (s : ShareConn Pkey) (kept : Option (Buf 1184)) : ShareConn Pkey :=
  { s with peerKyber768Pk := kept }

/-- Kyber768 is a group of both ends. -/
def KyberListed (s : ShareConn Pkey) : Prop :=
  kyber768Group ∈ s.groups ∧ kyber768Group ∈ s.peerGroups

theorem parseKyberShare_ok_iff {share : Bytes} {u : Unit} :
    (parseKyberShare env share).run s = .ok u t ↔ s.peerKyber768Pk = none ∧ KyberListed s ∧
        ∃ pk : Buf 1184, share = pk.1 ∧ t = s.keep (some pk) := by
  rw [parseKyberShare, run_get_bind_ok, run_check_bind_ok, run_check_bind_ok, run_orThrow_bind_ok,
    checkInList_false_iff, checkInList_false_iff]
  refine and_congr_right fun _ => and_congr_right fun _ => exists_congr fun pk => ?_
  rw [run_modify_ok]
  refine and_congr ?_ eq_comm
  split
  · next => exact ⟨fun h => congrArg Subtype.val (Option.some.inj h),
      fun h => congrArg some (Subtype.ext h)⟩
  · next hlen => exact ⟨by simp, fun h => (hlen (h ▸ pk.2)).elim⟩

/-- The Kyber768 key that a server with `held` has behind the entries: at most
one of them is a Kyber768 entry. -/
def KyberKept (s : ShareConn Pkey) (es : List KeyShareEntry)
    (held kept : Option (Buf 1184)) : Prop :=
  (kyberShares es = [] ∧ kept = held) ∨
    (held = none ∧ KyberListed s ∧ ∃ pk : Buf 1184, kyberShares es = [pk.1] ∧ kept = some pk)

theorem kyberKept_nil : KyberKept s [] held kept ↔ kept = held := by
  simp [KyberKept, kyberShares]

theorem kyberKept_cons_kyber
    (he : e.group = kyber768Group) :
    KyberKept s (e :: es) held kept ↔ held = none ∧ KyberListed s ∧
        ∃ pk : Buf 1184, e.share = pk.1 ∧ KyberKept s es (some pk) kept := by
  have hcons : kyberShares (e :: es) = e.share :: kyberShares es := by simp [kyberShares, he]
  simp only [KyberKept, hcons, reduceCtorEq, false_and, false_or, or_false, List.cons.injEq]
  grind

theorem kyberKept_cons_other
    (he : e.group ≠ kyber768Group) :
    KyberKept s (e :: es) held kept ↔ KyberKept s es held kept := by
  have hcons : kyberShares (e :: es) = kyberShares es := by simp [kyberShares, he]
  rw [KyberKept, hcons, KyberKept]

/-! ## the loop -/

/-- Behind the SM2 entry the loop looks at the Kyber768 entries only. -/
theorem parseShares_found {r : Bool × Bool}
    (hes : ∀ e ∈ es, e.WellFormed) (hfuel : es.length ≤ fuel) (hctx : s.ctxHybrid = true) :
    (parseShares lib env fuel (shareList es) true s.peerKyber768Pk.isSome).run s = .ok r t ↔
      ∃ kept, KyberKept s es s.peerKyber768Pk kept ∧ r = (true, kept.isSome) ∧ t = s.keep kept := by
  induction es generalizing s fuel with
  | nil =>
    simp only [shareList_nil, parseShares, run_pure_ok, kyberKept_nil, exists_eq_left]
    exact and_congr eq_comm eq_comm
  | cons e es ih =>
    obtain ⟨he, hes⟩ := List.forall_mem_cons.mp hes
    obtain _ | fuel := fuel
    · exact absurd hfuel (by simp)
    have hfuel : es.length ≤ fuel := by simpa using hfuel
    rw [shareList_cons, parseShares_entry he]
    by_cases hgroup : e.group = kyber768Group
    · rw [if_pos ⟨hctx, hgroup⟩, run_bind_ok]
      simp only [parseKyberShare_ok_iff, kyberKept_cons_kyber hgroup]
      constructor
      · rintro ⟨_, _, ⟨hnone, hlisted, pk, hshare, rfl⟩, h⟩
        obtain ⟨kept, hkept, hr, ht⟩ := (ih (s := s.keep (some pk)) hes hfuel hctx).mp h
        exact ⟨kept, ⟨hnone, hlisted, pk, hshare, hkept⟩, hr, ht⟩
      · rintro ⟨kept, ⟨hnone, hlisted, pk, hshare, hkept⟩, hr, ht⟩
        exact ⟨(), _, ⟨hnone, hlisted, pk, hshare, rfl⟩,
          (ih (s := s.keep (some pk)) hes hfuel hctx).mpr ⟨kept, hkept, hr, ht⟩⟩
    · rw [if_neg (fun h => hgroup h.2), if_pos rfl, ih hes hfuel hctx]
      simp only [kyberKept_cons_other hgroup]

/-- SM2 is a group that the server has and may use. -/
def Sm2Usable (env : GroupTable Pkey) (s : ShareConn Pkey) : Prop :=
  curveSM2 ∈ s.groups ∧ env.checked curveSM2 = true ∧ env.allowed curveSM2 = true ∧
    env.valid curveSM2 = true

instance : Decidable (Sm2Usable env s) := inferInstanceAs (Decidable (_ ∧ _))

/-- A share is a point of SM2, a group of both ends. -/
def ValidSm2 (lib : Libcrypto X509 Pkey) (env : GroupTable Pkey) (s : ShareConn Pkey)
    (share : Bytes) (peer : Pkey) : Prop :=
  curveSM2 ∈ s.peerGroups ∧ Sm2Usable env s ∧
    ∃ param, lib.generateParamGroup curveSM2 = some param ∧
      tls13SetEncodedPubKey lib env param share = some peer

/-- The server has the SM2 share. -/
def ShareConn.tookSm2 (s : ShareConn Pkey) (peer : Pkey) : ShareConn Pkey :=
  { s with peerTmp := some peer, groupId := curveSM2, kexGroup := curveSM2 }

/-- An entry that the loop looks at names a group of the client.  In hybrid mode
it is taken if it is an SM2 entry. -/
theorem parseShare_ok_iff {groupId : Nat} {share : Bytes} {rest : Bool}
    (hctx : s.ctxHybrid = true) (hgroup : s.groupId = 0) :
    (parseShare lib env groupId share rest).run s = .ok found t ↔ groupId ∈ s.peerGroups ∧
        if groupId = curveSM2 ∧ Sm2Usable env s then
          found = true ∧ ∃ peer, ValidSm2 lib env s share peer ∧ t = s.tookSm2 peer
        else found = false ∧ t = s := by
  rw [parseShare, run_get_bind_ok, run_check_bind_ok, run_check_bind_ok, checkInList_false_iff]
  simp only [hgroup, true_or, true_and]
  refine and_congr_right fun hpeer => ?_
  have hsuitable : (checkInList env groupId s.groups true && env.allowed groupId &&
      env.valid groupId && !(s.ctxHybrid && groupId != curveSM2)) = true ↔
      groupId = curveSM2 ∧ Sm2Usable env s := by
    simp only [hctx, Bool.true_and, Bool.and_eq_true, checkInList_true_iff, Bool.not_eq_true',
      bne_eq_false_iff_eq, Sm2Usable]
    grind
  by_cases h : groupId = curveSM2 ∧ Sm2Usable env s
  · rw [if_pos (hsuitable.mpr h), if_pos h, run_orThrow_bind_ok]
    obtain ⟨rfl, husable⟩ := h
    simp only [run_modify_bind_ok, run_orThrow_bind_ok, run_pure_ok]
    constructor
    · rintro ⟨param, hparam, peer, hset, rfl, rfl⟩
      exact ⟨rfl, peer, ⟨hpeer, husable, param, hparam, hset⟩, rfl⟩
    · rintro ⟨rfl, peer, ⟨_, _, param, hparam, hset⟩, rfl⟩
      exact ⟨param, hparam, peer, hset, rfl, rfl⟩
  · rw [if_neg (fun h' => h (hsuitable.mp h')), if_neg h, run_pure_ok]
    exact and_congr eq_comm eq_comm

/-- The first SM2 entry is valid, and the entries in front of it are Kyber768
entries or name groups of the client. -/
def Sm2Taken (lib : Libcrypto X509 Pkey) (env : GroupTable Pkey) (s : ShareConn Pkey)
    (es : List KeyShareEntry) (peer : Pkey) : Prop :=
  (∃ share, firstSm2 es = some share ∧ ValidSm2 lib env s share peer) ∧
    ∀ e ∈ frontEntries es, e.group = kyber768Group ∨ e.group ∈ s.peerGroups

theorem sm2Taken_cons_sm2
    (he : e.group = curveSM2) :
    Sm2Taken lib env s (e :: es) peer ↔ ValidSm2 lib env s e.share peer := by
  have hfirst : firstSm2 (e :: es) = some e.share := by simp [firstSm2, he]
  have hfront : frontEntries (e :: es) = [] := by simp [frontEntries, he]
  constructor
  · rintro ⟨⟨share, hshare, hvalid⟩, _⟩
    rw [hfirst] at hshare
    exact Option.some.inj hshare ▸ hvalid
  · intro hvalid
    refine ⟨⟨e.share, hfirst, hvalid⟩, ?_⟩
    simp [hfront]

theorem sm2Taken_cons_other
    (he : e.group ≠ curveSM2) :
    Sm2Taken lib env s (e :: es) peer ↔
      (e.group = kyber768Group ∨ e.group ∈ s.peerGroups) ∧ Sm2Taken lib env s es peer := by
  have hfirst : firstSm2 (e :: es) = firstSm2 es := by simp [firstSm2, he]
  have hfront : frontEntries (e :: es) = e :: frontEntries es := by simp [frontEntries, he]
  constructor
  · rintro ⟨hsome, hall⟩
    rw [hfirst] at hsome
    rw [hfront, List.forall_mem_cons] at hall
    exact ⟨hall.1, hsome, hall.2⟩
  · rintro ⟨hgroup, hsome, hall⟩
    refine ⟨hfirst ▸ hsome, ?_⟩
    rw [hfront, List.forall_mem_cons]
    exact ⟨hgroup, hall⟩

/-- Up to the SM2 entry the loop looks at every entry. -/
theorem parseShares_sm2
    (hes : ∀ e ∈ es, e.WellFormed) (hfuel : es.length ≤ fuel) (hctx : s.ctxHybrid = true)
    (hgroup : s.groupId = 0) :
    (parseShares lib env fuel (shareList es) false s.peerKyber768Pk.isSome).run s =
        .ok (true, foundKyber) t ↔
      ∃ kept peer, KyberKept s es s.peerKyber768Pk kept ∧ Sm2Taken lib env s es peer ∧
        foundKyber = kept.isSome ∧ t = (s.tookSm2 peer).keep kept := by
  induction es generalizing s fuel with
  | nil =>
    simp only [shareList_nil, parseShares, run_pure_ok, Prod.mk.injEq, Bool.false_eq_true,
      false_and, false_iff, not_exists, not_and]
    intro kept peer _ htaken
    obtain ⟨share, hfirst, _⟩ := htaken.1
    cases hfirst
  | cons e es ih =>
    obtain ⟨he, hes⟩ := List.forall_mem_cons.mp hes
    obtain _ | fuel := fuel
    · exact absurd hfuel (by simp)
    have hfuel : es.length ≤ fuel := by simpa using hfuel
    rw [shareList_cons, parseShares_entry he]
    by_cases hkyber : e.group = kyber768Group
    · have hsm2 : e.group ≠ curveSM2 := by simp [hkyber, kyber768Group, curveSM2]
      rw [if_pos ⟨hctx, hkyber⟩, run_bind_ok]
      simp only [parseKyberShare_ok_iff, kyberKept_cons_kyber hkyber, sm2Taken_cons_other hsm2]
      constructor
      · rintro ⟨_, _, ⟨hnone, hlisted, pk, hshare, rfl⟩, h⟩
        obtain ⟨kept, peer, hkept, htaken, hr, ht⟩ :=
          (ih (s := s.keep (some pk)) hes hfuel hctx hgroup).mp h
        exact ⟨kept, peer, ⟨hnone, hlisted, pk, hshare, hkept⟩, ⟨.inl hkyber, htaken⟩, hr, ht⟩
      · rintro ⟨kept, peer, ⟨hnone, hlisted, pk, hshare, hkept⟩, ⟨_, htaken⟩, hr, ht⟩
        exact ⟨(), _, ⟨hnone, hlisted, pk, hshare, rfl⟩,
          (ih (s := s.keep (some pk)) hes hfuel hctx hgroup).mpr
            ⟨kept, peer, hkept, htaken, hr, ht⟩⟩
    · rw [if_neg (fun h => hkyber h.2), if_neg (by decide), run_bind_ok]
      simp only [parseShare_ok_iff hctx hgroup, kyberKept_cons_other hkyber]
      by_cases hsm2 : e.group = curveSM2
      · simp only [hsm2, true_and, sm2Taken_cons_sm2 hsm2]
        by_cases husable : Sm2Usable env s
        · simp only [if_pos husable]
          constructor
          · rintro ⟨_, _, ⟨_, rfl, peer, hvalid, rfl⟩, h⟩
            obtain ⟨kept, hkept, hr, ht⟩ :=
              (parseShares_found (s := s.tookSm2 peer) hes hfuel hctx).mp h
            exact ⟨kept, peer, hkept, hvalid, (Prod.mk.inj hr).2, ht⟩
          · rintro ⟨kept, peer, hkept, hvalid, rfl, ht⟩
            exact ⟨true, _, ⟨hvalid.1, rfl, peer, hvalid, rfl⟩,
              (parseShares_found (s := s.tookSm2 peer) hes hfuel hctx).mpr ⟨kept, hkept, rfl, ht⟩⟩
        · -- without SM2 the server takes no share at all
          simp only [if_neg husable]
          constructor
          · rintro ⟨_, _, ⟨_, rfl, rfl⟩, h⟩
            obtain ⟨_, _, _, ⟨⟨_, _, hvalid⟩, _⟩, _⟩ := (ih hes hfuel hctx hgroup).mp h
            exact (husable hvalid.2.1).elim
          · rintro ⟨_, _, _, hvalid, _⟩
            exact (husable hvalid.2.1).elim
      · simp only [hsm2, false_and, if_false, sm2Taken_cons_other hsm2, hkyber, false_or]
        constructor
        · rintro ⟨_, _, ⟨hpeer, rfl, rfl⟩, h⟩
          obtain ⟨kept, peer, hkept, htaken, hr, ht⟩ := (ih hes hfuel hctx hgroup).mp h
          exact ⟨kept, peer, hkept, ⟨hpeer, htaken⟩, hr, ht⟩
        · rintro ⟨kept, peer, hkept, ⟨hpeer, htaken⟩, hr, ht⟩
          exact ⟨false, s, ⟨hpeer, rfl, rfl⟩,
            (ih hes hfuel hctx hgroup).mpr ⟨kept, peer, hkept, htaken, hr, ht⟩⟩

/-! ## the extension -/

/-- A hybrid server that sent no HelloRetryRequest waits for the shares of a
client. -/
structure Awaits (s : ShareConn Pkey) : Prop where
  ctxHybrid : s.ctxHybrid = true
  /-- the session, if there is one, is resumed with a key exchange -/
  exchange : ¬ (s.hit = true ∧ s.pskKeDhe = false)
  groupId : s.groupId = 0
  peerTmp : s.peerTmp = none
  peerKyber768Pk : s.peerKyber768Pk = none

/-- The entries have one Kyber768 key, a group of both ends, and a valid SM2
share. -/
structure Offer (lib : Libcrypto X509 Pkey) (env : GroupTable Pkey) (s : ShareConn Pkey)
    (es : List KeyShareEntry) (pk : Buf 1184) (peer : Pkey) : Prop where
  kyber : kyberShares es = [pk.1]
  kyberListed : KyberListed s
  sm2 : ∃ share, firstSm2 es = some share ∧ ValidSm2 lib env s share peer
  front : ∀ e ∈ frontEntries es, e.group = kyber768Group ∨ e.group ∈ s.peerGroups

theorem length_le_shareList (es : List KeyShareEntry) : es.length ≤ (shareList es).length := by
  induction es with
  | nil => exact le_rfl
  | cons e es ih =>
    rw [shareList_cons, List.length_append, List.length_cons]
    have hpos := List.length_pos_iff.mpr (e.bytes_ne_nil [])
    rw [List.append_nil] at hpos
    omega

/-- The parser is its loop, with both flags set in the end. -/
theorem tlsParseCtosKeyShare_ok_iff (hs : Awaits s) :
    (tlsParseCtosKeyShare lib env pkt).run s = .ok () t ↔
      ∃ list, getPrefixed 2 pkt = some (list, []) ∧ s.peerGroups ≠ [] ∧
        (parseShares lib env list.length list false false).run s = .ok (true, true) t ∧
        t.groupId = curveSM2 := by
  have hkeeps : ∀ list, Keeps (fun s : ShareConn Pkey => s.ctxHybrid = true)
      (parseShares lib env list.length list false false) := fun _ =>
    keeps_parseShares (fun _ _ _ _ h => h) fun _ _ h => h
  rw [tlsParseCtosKeyShare, run_get_bind_ok, run_onlyIf_ok]
  simp only [hs.exchange, not_false_eq_true, true_and, not_true_eq_false, false_and, or_false,
    run_check_bind_ok, run_orThrow_bind_ok, hs.peerTmp, Option.isNone_none, hs.groupId, true_or,
    Prod.exists]
  constructor
  · rintro ⟨list, _, hlist, rfl, hgroups, h⟩
    obtain ⟨⟨found, foundKyber⟩, u, hshares, h⟩ := run_bind_ok.mp h
    rw [run_get_bind_ok, run_check_ok] at h
    obtain ⟨hboth, rfl⟩ := h
    rw [(hkeeps list).ok hs.ctxHybrid hshares] at hboth
    obtain ⟨rfl, rfl, hgroup⟩ := hboth.resolve_left (by decide)
    exact ⟨list, hlist, hgroups, hshares, hgroup⟩
  · rintro ⟨list, hlist, hgroups, hshares, hgroup⟩
    refine ⟨list, [], hlist, rfl, hgroups, run_bind_ok.mpr ⟨_, t, hshares, ?_⟩⟩
    rw [run_get_bind_ok, run_check_ok]
    exact ⟨.inr ⟨rfl, rfl, hgroup⟩, rfl⟩

/-- The parser on a list of entries. -/
theorem tlsParseCtosKeyShare_lists (hs : Awaits s)
    (hlists : Lists pkt es) :
    (tlsParseCtosKeyShare lib env pkt).run s = .ok () t ↔
      ∃ pk peer, Offer lib env s es pk peer ∧ t = s.took peer pk := by
  have hdata : getPrefixed 2 pkt = some (shareList es, []) :=
    getPrefixed_eq_some_iff.mpr ⟨by simp [hlists.data], hlists.length_lt⟩
  have hloop : (parseShares lib env (shareList es).length (shareList es) false false).run s =
      .ok (true, true) t ↔ ∃ kept peer, KyberKept s es none kept ∧ Sm2Taken lib env s es peer ∧
        true = kept.isSome ∧ t = (s.tookSm2 peer).keep kept := by
    have hentries : (parseShares lib env (shareList es).length (shareList es) false
        s.peerKyber768Pk.isSome).run s = .ok (true, true) t ↔ _ :=
      parseShares_sm2 hlists.wellFormed (length_le_shareList es) hs.ctxHybrid hs.groupId
    rwa [hs.peerKyber768Pk] at hentries
  rw [tlsParseCtosKeyShare_ok_iff hs, hdata]
  constructor
  · rintro ⟨_, hlist, _, hshares, _⟩
    obtain ⟨rfl, -⟩ := Prod.mk.inj (Option.some.inj hlist)
    obtain ⟨kept, peer, hkept, hsm2, hsome, rfl⟩ := hloop.mp hshares
    rcases hkept with ⟨_, rfl⟩ | ⟨_, hlisted, pk, hkyber, rfl⟩
    · cases hsome
    · exact ⟨pk, peer, ⟨hkyber, hlisted, hsm2.1, hsm2.2⟩, rfl⟩
  · rintro ⟨pk, peer, hoffer, rfl⟩
    refine ⟨_, rfl, List.ne_nil_of_mem hoffer.kyberListed.2, hloop.mpr ?_, rfl⟩
    exact ⟨some pk, peer, .inr ⟨rfl, hoffer.kyberListed, pk, hoffer.kyber, rfl⟩,
      ⟨hoffer.sm2, hoffer.front⟩, rfl, rfl⟩

/-- What the parser accepts is a list of entries. -/
theorem lists_of_ok (hs : Awaits s)
    (h : (tlsParseCtosKeyShare lib env pkt).run s = .ok () t) : ∃ es, Lists pkt es := by
  obtain ⟨list, hlist, _, hshares, _⟩ := (tlsParseCtosKeyShare_ok_iff hs).mp h
  obtain ⟨es, rfl, _, hwf⟩ := parseShares_entries hshares
  obtain ⟨hpkt, hlen⟩ := getPrefixed_eq_some_iff.mp hlist
  exact ⟨es, hwf, hlen, by simpa using hpkt⟩

/-- Both lists have the same entries in front of the first SM2 entry, up to their
order and to Kyber768 entries. -/
def SameFront (es es' : List KeyShareEntry) : Prop :=
  ∀ e : KeyShareEntry, e.group ≠ kyber768Group → (e ∈ frontEntries es ↔ e ∈ frontEntries es')

theorem SameFront.symm {es' : List KeyShareEntry} (h : SameFront es es') : SameFront es' es :=
  fun e he => (h e he).symm

theorem Offer.perm {es' : List KeyShareEntry} {pk : Buf 1184}
    (h : Offer lib env s es pk peer) (hperm : es.Perm es') (hfirst : firstSm2 es = firstSm2 es')
    (hfront : SameFront es es') : Offer lib env s es' pk peer where
  kyber := by
    have hkyber : (kyberShares es).Perm (kyberShares es') := (hperm.filter _).map _
    rw [h.kyber] at hkyber
    exact (List.singleton_perm.mp hkyber).symm
  kyberListed := h.kyberListed
  sm2 := hfirst ▸ h.sm2
  front e he := by
    by_cases hgroup : e.group = kyber768Group
    · exact .inl hgroup
    · exact h.front e ((hfront e hgroup).mpr he)

/-- **The offers that are accepted**: a hybrid server takes a list of entries that
has one Kyber768 key and in whose front part, up to a valid first SM2 entry, every
entry names a group of the client.  It stores the first SM2 share, and the order of
the entries matters only as far as it moves an entry across the first SM2 entry. -/
theorem tlsParseCtosKeyShare_offer (hs : Awaits s) :
    (∀ pkt t, (tlsParseCtosKeyShare lib env pkt).run s = .ok () t ↔
      ∃ es pk peer, Lists pkt es ∧ Offer lib env s es pk peer ∧ t = s.took peer pk) ∧
    ∀ pkt pkt' es es', Lists pkt es → Lists pkt' es' → es.Perm es' →
      firstSm2 es = firstSm2 es' → SameFront es es' →
      ∀ t, (tlsParseCtosKeyShare lib env pkt).run s = .ok () t ↔
        (tlsParseCtosKeyShare lib env pkt').run s = .ok () t := by
  refine ⟨fun pkt t => ⟨fun h => ?_, ?_⟩, ?_⟩
  · obtain ⟨es, hlists⟩ := lists_of_ok hs h
    obtain ⟨pk, peer, hoffer, ht⟩ := (tlsParseCtosKeyShare_lists hs hlists).mp h
    exact ⟨es, pk, peer, hlists, hoffer, ht⟩
  · rintro ⟨es, pk, peer, hlists, hoffer⟩
    exact (tlsParseCtosKeyShare_lists hs hlists).mpr ⟨pk, peer, hoffer⟩
  · intro pkt pkt' es es' hlists hlists' hperm hfirst hfront t
    rw [tlsParseCtosKeyShare_lists hs hlists, tlsParseCtosKeyShare_lists hs hlists']
    refine exists_congr fun pk => exists_congr fun peer => and_congr_left fun _ => ?_
    exact ⟨fun h => h.perm hperm hfirst hfront, fun h => h.perm hperm.symm hfirst.symm hfront.symm⟩

/-! ## an entry behind the SM2 entry -/

/-- A list of entries as the data of the extension. -/
def keyShareData (es : List KeyShareEntry) : Bytes :=
  putUint 2 (shareList es).length ++ shareList es

/-- The parser takes the list of entries. -/
def takesEntries (lib : Libcrypto X509 Pkey) (env : GroupTable Pkey) (s : ShareConn Pkey)
    (es : List KeyShareEntry) : Bool :=
  match (tlsParseCtosKeyShare lib env (keyShareData es)).run s with
  | .ok _ _ => true
  | .error _ _ => false

/-- A hybrid server, with a client that has SM2 and Kyber768. -/
def hybridServer : ShareConn (String × Bytes) :=
  { plainServer true with peerGroups := [curveSM2, kyber768Group] }

theorem hybridServer_awaits : Awaits hybridServer := ⟨rfl, by decide, rfl, rfl, rfl⟩

def sm2Entry : KeyShareEntry := ⟨curveSM2, [4, 5, 6]⟩

def kyberKey : Buf 1184 := ⟨List.replicate 1184 0, List.length_replicate⟩

def kyberEntry : KeyShareEntry := ⟨kyber768Group, kyberKey.1⟩

/-- An entry for x25519, which is not a group of the client. -/
def foreignEntry : KeyShareEntry := ⟨29, [1]⟩

theorem lists_foreign : Lists (keyShareData [sm2Entry, kyberEntry, foreignEntry])
      [sm2Entry, kyberEntry, foreignEntry] where
  wellFormed := by
    simp only [List.forall_mem_cons, List.not_mem_nil, false_implies, implies_true, and_true]
    refine ⟨⟨?_, ?_, ?_⟩, ⟨?_, ?_, ?_⟩, ⟨?_, ?_, ?_⟩⟩ <;> decide +kernel
  length_lt := by decide +kernel
  data := rfl

theorem tlsParseCtosKeyShare_offer_plain : Awaits hybridServer ∧
      (tlsParseCtosKeyShare .plain .plain (keyShareData [sm2Entry, kyberEntry, foreignEntry])).run
        hybridServer = .ok () (hybridServer.took ("SM2", [4, 5, 6]) kyberKey) := by
  refine ⟨hybridServer_awaits, ((tlsParseCtosKeyShare_offer hybridServer_awaits).1 _ _).mpr ?_⟩
  refine ⟨_, kyberKey, ("SM2", [4, 5, 6]), lists_foreign, ?_, rfl⟩
  refine ⟨rfl, ⟨by decide, by decide⟩, ?_, by decide⟩
  exact ⟨[4, 5, 6], rfl, by decide, by decide, ("SM2", []), rfl, rfl⟩

/-- A libcrypto that takes uncompressed points only. -/
def strictLibcrypto : Libcrypto Bytes (String × Bytes) := { Libcrypto.plain with
    setEncodedPublicKey := fun _ bs => if bs.head? = some 4 then some ("SM2", bs) else none }

/-- The parser and the list of conditions without order disagree: an entry for a
foreign group is taken behind the SM2 entry and refused in front of it, an invalid
SM2 entry spoils a valid one behind it, a Kyber768 entry is refused from a client
that does not list the group, and a resumption without a key exchange takes an
empty list. -/
theorem order_of_entries_matters :
    Awaits hybridServer ∧ foreignEntry.group ∉ hybridServer.peerGroups ∧
      takesEntries .plain .plain hybridServer [sm2Entry, kyberEntry, foreignEntry] = true ∧
      takesEntries .plain .plain hybridServer [foreignEntry, sm2Entry, kyberEntry] = false ∧
      takesEntries strictLibcrypto .plain hybridServer [sm2Entry, kyberEntry] = true ∧
      takesEntries strictLibcrypto .plain hybridServer
        [⟨curveSM2, [2]⟩, sm2Entry, kyberEntry] = false ∧
      takesEntries .plain .plain { hybridServer with peerGroups := [curveSM2] }
        [sm2Entry, kyberEntry] = false ∧
      takesEntries .plain .plain { hybridServer with hit := true } [] = true := by
  refine ⟨hybridServer_awaits, by decide, ?_, ?_, ?_, ?_, ?_, ?_⟩ <;> decide +kernel

end Tlcp.Tls13
