import HwPhoneLink.Fillp.Frame

/-!
# The codec of the management datagrams

Round trips of the eight layouts, in both directions. Encoding and decoding gives the
fields back. Decoding and encoding gives back the bytes of the fields that the decoder
returned, but not always the flag word of the head: the NACK and the PACK decoder look
at its version only and leave type and flags to the caller.
-/

namespace HwPhoneLink.Fillp

open BigEndian

/-! ## Reading a payload -/

section Payload

variable {head : Bytes}

theorem fillpDecodeConnReq_payload (hhead : head.length = 12) (p s r : UInt32) (t : UInt64) :
    fillpDecodeConnReq (head ++ (putU32 p ++ (putU32 s ++ (putU32 r ++ putU64 t)))) =
      some ⟨p, s, r, t⟩ := by
  set buf := head ++ (putU32 p ++ (putU32 s ++ (putU32 r ++ putU64 t))) with hbuf
  have hp : u32At buf 12 = p := u32At_append _ _ _ hhead
  have hs : u32At buf 16 = s := by
    rw [hbuf, ← List.append_assoc]
    exact u32At_append _ _ _ (by simp [hhead])
  have hr : u32At buf 20 = r := by
    rw [hbuf, ← List.append_assoc, ← List.append_assoc]
    exact u32At_append _ _ _ (by simp [hhead])
  have ht : u64At buf 24 = t := by
    rw [hbuf, ← List.append_assoc, ← List.append_assoc, ← List.append_assoc]
    exact u64At_append_last _ _ (by simp [hhead])
  have hlen : buf.length = fillpHlen + fillpConnReqLen := by
    simp [hbuf, hhead, fillpHlen, fillpConnReqLen]
  rw [fillpDecodeConnReq, if_neg (not_not.mpr hlen), hp, hs, hr, ht]

theorem fillpDecodeConnReqAck_payload (hhead : head.length = 12) (tag : UInt16) {cookie : Bytes}
    (hcookie : cookie.length = fillpCookieLen) (t : UInt64) :
    fillpDecodeConnReqAck (head ++ (putU16 tag ++ (putU16 108 ++ (cookie ++ putU64 t)))) =
      some ⟨tag, cookie, t⟩ := by
  set buf := head ++ (putU16 tag ++ (putU16 108 ++ (cookie ++ putU64 t))) with hbuf
  have htag : u16At buf 12 = tag := u16At_append _ _ _ hhead
  have hsize : u16At buf 14 = 108 := by
    rw [hbuf, ← List.append_assoc]
    exact u16At_append _ _ _ (by simp [hhead])
  have hfield : field fillpCookieLen 16 buf = cookie := by
    rw [hbuf, ← List.append_assoc, ← List.append_assoc]
    exact field_append _ _ _ (by simp [hhead]) hcookie
  have ht : u64At buf 124 = t := by
    rw [hbuf, ← List.append_assoc, ← List.append_assoc, ← List.append_assoc]
    exact u64At_append_last _ _ (by simp [hhead, hcookie, fillpCookieLen])
  have hlen : buf.length = fillpHlen + fillpConnReqAckLen := by
    simp [hbuf, hhead, hcookie, fillpHlen, fillpCookieLen, fillpConnReqAckLen]
  rw [fillpDecodeConnReqAck, if_neg (not_not.mpr hlen), hsize, if_neg (not_not.mpr rfl), htag,
    hfield, ht]

theorem fillpDecodeConnConfirm_payload (hhead : head.length = 12) (tag : UInt16)
    {cookie addr : Bytes} (hcookie : cookie.length = fillpCookieLen)
    (haddr : addr.length = fillpAddrLen) :
    fillpDecodeConnConfirm (head ++ (putU16 tag ++ (putU16 108 ++ (cookie ++ addr)))) =
      some ⟨tag, cookie, addr⟩ := by
  set buf := head ++ (putU16 tag ++ (putU16 108 ++ (cookie ++ addr))) with hbuf
  have htag : u16At buf 12 = tag := u16At_append _ _ _ hhead
  have hsize : u16At buf 14 = 108 := by
    rw [hbuf, ← List.append_assoc]
    exact u16At_append _ _ _ (by simp [hhead])
  have hfield : field fillpCookieLen 16 buf = cookie := by
    rw [hbuf, ← List.append_assoc, ← List.append_assoc]
    exact field_append _ _ _ (by simp [hhead]) hcookie
  have hlast : field fillpAddrLen 124 buf = addr := by
    rw [hbuf, ← List.append_assoc, ← List.append_assoc, ← List.append_assoc]
    exact field_append_last _ _ (by simp [hhead, hcookie, fillpCookieLen]) haddr
  have hlen : buf.length = fillpHlen + fillpConnConfirmLen := by
    simp [hbuf, hhead, hcookie, haddr, fillpHlen, fillpCookieLen, fillpAddrLen,
      fillpConnConfirmLen]
  rw [fillpDecodeConnConfirm, if_neg (not_not.mpr hlen), hsize, if_neg (not_not.mpr rfl), htag,
    hfield, hlast]

theorem fillpDecodeConnConfirmAck_payload (hhead : head.length = 12) (s r size : UInt32)
    {addr : Bytes} (haddr : addr.length = fillpAddrLen) :
    fillpDecodeConnConfirmAck (head ++ (putU32 s ++ (putU32 r ++ (putU32 size ++ addr)))) =
      some ⟨s, r, size, addr⟩ := by
  set buf := head ++ (putU32 s ++ (putU32 r ++ (putU32 size ++ addr))) with hbuf
  have hs : u32At buf 12 = s := u32At_append _ _ _ hhead
  have hr : u32At buf 16 = r := by
    rw [hbuf, ← List.append_assoc]
    exact u32At_append _ _ _ (by simp [hhead])
  have hsize : u32At buf 20 = size := by
    rw [hbuf, ← List.append_assoc, ← List.append_assoc]
    exact u32At_append _ _ _ (by simp [hhead])
  have hlast : field fillpAddrLen 24 buf = addr := by
    rw [hbuf, ← List.append_assoc, ← List.append_assoc, ← List.append_assoc]
    exact field_append_last _ _ (by simp [hhead]) haddr
  have hlen : buf.length = fillpHlen + fillpConnConfirmAckLen := by
    simp [hbuf, hhead, haddr, fillpHlen, fillpAddrLen, fillpConnConfirmAckLen]
  rw [fillpDecodeConnConfirmAck, if_neg (not_not.mpr hlen), hs, hr, hsize, hlast]

theorem fillpDecodeFin_payload (hhead : head.length = 12) (flag : UInt16) :
    fillpDecodeFin (head ++ putU16 flag) = some flag := by
  have hlen : (head ++ putU16 flag).length = fillpHlen + fillpFinLen := by
    simp [hhead, fillpHlen, fillpFinLen]
  rw [fillpDecodeFin, if_neg (not_not.mpr hlen), u16At_append_last _ _ hhead]

end Payload

/-! ## The head -/

theorem fillpDecodeHead_some {buf : Bytes} {h : FpHead} (hdec : fillpDecodeHead buf = some h) :
    12 ≤ buf.length ∧ (u16At buf 0).toNat < 4096 ∧ h.type = (u16At buf 0).toNat / 256 ∧
      h.flags = (u16At buf 0).toNat % 256 ∧ h.dataLen = u16At buf 2 ∧ h.pktNum = u32At buf 4 ∧
      h.seqNum = u32At buf 8 := by
  have hword := (u16At buf 0).toNat_lt
  unfold fillpDecodeHead at hdec
  split at hdec
  · cases hdec
  rename_i hlen
  simp only at hdec
  split at hdec
  · cases hdec
  rename_i hversion
  cases hdec
  refine ⟨Nat.le_of_not_lt hlen, by omega, ?_, rfl, rfl, rfl, rfl⟩
  show (u16At buf 0).toNat / 256 % 16 = _
  omega

/-- **A decoded head encodes to the bytes it came from.** -/
theorem fillpEncodeHead_decode {buf : Bytes} {h : FpHead} (hdec : fillpDecodeHead buf = some h) :
    fillpEncodeHead h.type h.flags h.dataLen h.pktNum h.seqNum = field 12 0 buf := by
  obtain ⟨hlen, hversion, htype, hflags, hdata, hpkt, hseq⟩ := fillpDecodeHead_some hdec
  have hword : UInt16.ofNat (h.type % 16 * 256 + h.flags % 256) = u16At buf 0 := by
    have hsum : h.type % 16 * 256 + h.flags % 256 = (u16At buf 0).toNat := by omega
    rw [hsum, UInt16.ofNat_toNat]
  rw [fillpEncodeHead, hword, hdata, hpkt, hseq, putU16_u16At (by omega), putU16_u16At (by omega),
    putU32_u32At (by omega), putU32_u32At (by omega), field_add 4 4 4, field_add 2 8 2,
    field_add 2 10 0]

theorem field_head_pktNum (type extra : ℕ) (dataLen : UInt16) (pktNum seqNum : UInt32)
    (rest : Bytes) :
    field 4 4 (fillpEncodeHead type extra dataLen pktNum seqNum ++ rest) = putU32 pktNum := by
  have hsplit : fillpEncodeHead type extra dataLen pktNum seqNum ++ rest =
      (putU16 (UInt16.ofNat (type % 16 * 256 + extra % 256)) ++ putU16 dataLen) ++
        (putU32 pktNum ++ (putU32 seqNum ++ rest)) := by simp [fillpEncodeHead]
  rw [hsplit]
  exact field_append _ _ _ (by simp) (by simp)

theorem field_head_seqNum (type extra : ℕ) (dataLen : UInt16) (pktNum seqNum : UInt32)
    (rest : Bytes) :
    field 4 8 (fillpEncodeHead type extra dataLen pktNum seqNum ++ rest) = putU32 seqNum := by
  have hsplit : fillpEncodeHead type extra dataLen pktNum seqNum ++ rest =
      (putU16 (UInt16.ofNat (type % 16 * 256 + extra % 256)) ++ putU16 dataLen ++
        putU32 pktNum) ++ (putU32 seqNum ++ rest) := by simp [fillpEncodeHead]
  rw [hsplit]
  exact field_append _ _ _ (by simp) (by simp)

/-! ## Messages -/

/-- The arguments of an encoder. A cookie and an address are arrays of fixed length. -/
inductive FpMgmt : Type where
  | connReq (cookiePreserveTimeUs sendCache recvCache : UInt32) (timestampUs : UInt64)
  | connReqAck (tagCookie : UInt16) (cookie : {b : Bytes // b.length = fillpCookieLen})
      (timestampUs : UInt64)
  | connConfirm (tagCookie : UInt16) (cookie : {b : Bytes // b.length = fillpCookieLen})
      (localAddr : {b : Bytes // b.length = fillpAddrLen})
  | connConfirmAck (sendCache recvCache pktSize : UInt32)
      (localAddr : {b : Bytes // b.length = fillpAddrLen})
  | nack (type : FpPktType) (beginPkt endPkt seqNum : UInt32) (randomNum : UInt64)
  | pack (ackSeq ackPkt lostSeq rcvListBytes : UInt32)
  | fin (flag : UInt16)

namespace FpMgmt

def encode (cap : ℕ) : FpMgmt → Option Bytes
  | connReq p s r t => fillpEncodeConnReq cap p s r t
  | connReqAck tag cookie t => fillpEncodeConnReqAck cap tag cookie t
  | connConfirm tag cookie addr => fillpEncodeConnConfirm cap tag cookie addr
  | connConfirmAck s r size addr => fillpEncodeConnConfirmAck cap s r size addr
  | nack type b e s random => fillpEncodeNack cap type b e s random
  | pack seq pkt lost rcv => fillpEncodePack cap seq pkt lost rcv
  | fin flag => fillpEncodeFin cap flag

/-- The decoder of the message's kind returns its fields. -/
def Decoded (buf : Bytes) : FpMgmt → Prop
  | connReq p s r t => fillpDecodeConnReq buf = some ⟨p, s, r, t⟩
  | connReqAck tag cookie t => fillpDecodeConnReqAck buf = some ⟨tag, cookie, t⟩
  | connConfirm tag cookie addr => fillpDecodeConnConfirm buf = some ⟨tag, cookie, addr⟩
  | connConfirmAck s r size addr => fillpDecodeConnConfirmAck buf = some ⟨s, r, size, addr⟩
  | nack _ b e s _ => fillpDecodeNack buf = some ⟨b, e, s⟩
  | pack seq pkt lost rcv => fillpDecodePack buf = some ⟨seq, pkt, lost, rcv⟩
  | fin flag => fillpDecodeFin buf = some flag

def type : FpMgmt → FpPktType
  | connReq .. => .connReq
  | connReqAck .. => .connReqAck
  | connConfirm .. => .connConfirm
  | connConfirmAck .. => .connConfirmAck
  | nack type .. => type
  | pack .. => .pack
  | fin .. => .fin

def payloadLen : FpMgmt → ℕ
  | connReq .. => fillpConnReqLen
  | connReqAck .. => fillpConnReqAckLen
  | connConfirm .. => fillpConnConfirmLen
  | connConfirmAck .. => fillpConnConfirmAckLen
  | nack .. => fillpNackLen
  | pack .. => fillpPackLen
  | fin .. => fillpFinLen

/-- The packet number in the head. -/
def pktNum : FpMgmt → UInt32
  | nack _ b .. => b
  | pack _ pkt .. => pkt
  | _ => 0

/-- The sequence number in the head. -/
def seqNum : FpMgmt → UInt32
  | nack _ _ _ s _ => s
  | pack seq .. => seq
  | _ => 0

def payload : FpMgmt → Bytes
  | connReq p s r t => putU32 p ++ (putU32 s ++ (putU32 r ++ putU64 t))
  | connReqAck tag cookie t => putU16 tag ++ (putU16 108 ++ (cookie ++ putU64 t))
  | connConfirm tag cookie addr => putU16 tag ++ (putU16 108 ++ (cookie ++ addr))
  | connConfirmAck s r size addr => putU32 s ++ (putU32 r ++ (putU32 size ++ addr))
  | nack _ _ e _ random => putU32 (e - 1) ++ putU64 random
  | pack _ _ lost rcv => putU16 0 ++ putU16 0 ++ putU32 0 ++ putU32 0 ++ (putU32 lost ++
      (putU32 0 ++ putU32 0 ++ putU32 0 ++ putU16 0 ++ (putU32 rcv ++
        (putU32 0 ++ putU32 0 ++ putU32 0))))
  | fin flag => putU16 flag

def head (m : FpMgmt) : Bytes :=
  fillpEncodeHead m.type.code 0 (UInt16.ofNat m.payloadLen) m.pktNum m.seqNum

/-- Where the decoder takes its fields from, as offset and width. The cookie length that
two of them check is one of the fields. -/
def fieldsRead : FpMgmt → List (ℕ × ℕ)
  | nack .. => [(4, 4), (8, 4), (12, 4)]
  | pack .. => [(4, 4), (8, 4), (24, 4), (42, 4)]
  | m => [(12, m.payloadLen)]

/-- Every encoder writes a head and a payload, if there is room for both. -/
theorem encode_eq (m : FpMgmt) (cap : ℕ) :
    m.encode cap = if cap < fillpHlen + m.payloadLen then none else some (m.head ++ m.payload) := by
  cases m <;> rfl

@[simp] theorem head_length (m : FpMgmt) : m.head.length = 12 := fillpEncodeHead_length _ _ _ _ _

@[simp] theorem payload_length (m : FpMgmt) : m.payload.length = m.payloadLen := by
  cases m with
  | connReq p s r t => simp [payload, payloadLen, fillpConnReqLen]
  | connReqAck tag cookie t =>
      simp [payload, payloadLen, fillpConnReqAckLen, cookie.property, fillpCookieLen]
  | connConfirm tag cookie addr =>
      simp [payload, payloadLen, fillpConnConfirmLen, cookie.property, addr.property,
        fillpCookieLen, fillpAddrLen]
  | connConfirmAck s r size addr =>
      simp [payload, payloadLen, fillpConnConfirmAckLen, addr.property, fillpAddrLen]
  | nack type b e s random => simp [payload, payloadLen, fillpNackLen]
  | pack seq pkt lost rcv => simp [payload, payloadLen, fillpPackLen]
  | fin flag => simp [payload, payloadLen, fillpFinLen]

theorem encode_some {m : FpMgmt} {cap : ℕ} {buf : Bytes} (h : m.encode cap = some buf) :
    buf = m.head ++ m.payload := by
  rw [encode_eq] at h
  split at h
  · cases h
  · exact (Option.some.inj h).symm

/-! ## From the fields to the bytes and back -/

/-- **Decoding what was encoded.** -/
theorem decoded_encode (m : FpMgmt) : m.Decoded (m.head ++ m.payload) := by
  cases m with
  | connReq p s r t => exact fillpDecodeConnReq_payload (head_length _) p s r t
  | connReqAck tag cookie t =>
      exact fillpDecodeConnReqAck_payload (head_length _) tag cookie.property t
  | connConfirm tag cookie addr =>
      exact fillpDecodeConnConfirm_payload (head_length _) tag cookie.property addr.property
  | connConfirmAck s r size addr =>
      exact fillpDecodeConnConfirmAck_payload (head_length _) s r size addr.property
  | nack type b e s random =>
      have henc := encode_eq (nack type b e s random) (fillpHlen + fillpNackLen)
      rw [payloadLen, if_neg (Nat.lt_irrefl _)] at henc
      exact fillpDecodeNack_encode henc
  | pack seq pkt lost rcv =>
      have henc := encode_eq (pack seq pkt lost rcv) (fillpHlen + fillpPackLen)
      rw [payloadLen, if_neg (Nat.lt_irrefl _)] at henc
      exact fillpDecodePack_encode henc
  | fin flag => exact fillpDecodeFin_payload (head_length _) flag

/-! ## From the bytes to the fields and back -/

/-- A payload that is one field. -/
theorem payload_of_decoded {m : FpMgmt} {buf : Bytes} (h : m.Decoded buf)
    (hlen : buf.length = fillpHlen + m.payloadLen) (hwhole : m.fieldsRead = [(12, m.payloadLen)]) :
    m.payload = field m.payloadLen 12 buf := by
  have hfits : ∀ off w, off + w ≤ 12 + m.payloadLen → off + w ≤ buf.length := by
    intro off w hw
    rw [hlen]
    exact hw
  cases m with
  | connReq p s r t =>
      change buf.length = fillpHlen + fillpConnReqLen at hlen
      change ∀ off w, off + w ≤ 12 + fillpConnReqLen → off + w ≤ buf.length at hfits
      change fillpDecodeConnReq buf = some ⟨p, s, r, t⟩ at h
      rw [fillpDecodeConnReq, if_neg (not_not.mpr hlen), Option.some.injEq,
        FpConnReq.mk.injEq] at h
      obtain ⟨rfl, rfl, rfl, rfl⟩ := h
      show putU32 _ ++ (putU32 _ ++ (putU32 _ ++ putU64 _)) = field 20 12 buf
      rw [putU32_u32At (hfits 12 4 (by decide)), putU32_u32At (hfits 16 4 (by decide)),
        putU32_u32At (hfits 20 4 (by decide)), putU64_u64At (hfits 24 8 (by decide)),
        field_add 4 8 20, field_add 4 12 16, field_add 4 16 12]
  | connReqAck tag cookie t =>
      change buf.length = fillpHlen + fillpConnReqAckLen at hlen
      change ∀ off w, off + w ≤ 12 + fillpConnReqAckLen → off + w ≤ buf.length at hfits
      change fillpDecodeConnReqAck buf = some ⟨tag, cookie, t⟩ at h
      rw [fillpDecodeConnReqAck, if_neg (not_not.mpr hlen)] at h
      split at h
      · cases h
      rename_i hsize
      rw [Option.some.injEq, FpConnReqAck.mk.injEq] at h
      obtain ⟨htag, hcookie, ht⟩ := h
      show putU16 tag ++ (putU16 108 ++ ((cookie : Bytes) ++ putU64 t)) = field 120 12 buf
      rw [← htag, ← hcookie, ← ht, ← not_not.mp hsize, putU16_u16At (hfits 12 2 (by decide)),
        putU16_u16At (hfits 14 2 (by decide)), putU64_u64At (hfits 124 8 (by decide))]
      unfold fillpCookieLen
      rw [field_add 108 8 16, field_add 2 116 14, field_add 2 118 12]
  | connConfirm tag cookie addr =>
      change buf.length = fillpHlen + fillpConnConfirmLen at hlen
      change ∀ off w, off + w ≤ 12 + fillpConnConfirmLen → off + w ≤ buf.length at hfits
      change fillpDecodeConnConfirm buf = some ⟨tag, cookie, addr⟩ at h
      rw [fillpDecodeConnConfirm, if_neg (not_not.mpr hlen)] at h
      split at h
      · cases h
      rename_i hsize
      rw [Option.some.injEq, FpConnConfirm.mk.injEq] at h
      obtain ⟨htag, hcookie, haddr⟩ := h
      show putU16 tag ++ (putU16 108 ++ ((cookie : Bytes) ++ (addr : Bytes))) = field 140 12 buf
      rw [← htag, ← hcookie, ← haddr, ← not_not.mp hsize, putU16_u16At (hfits 12 2 (by decide)),
        putU16_u16At (hfits 14 2 (by decide))]
      unfold fillpCookieLen fillpAddrLen
      rw [field_add 108 28 16, field_add 2 136 14, field_add 2 138 12]
  | connConfirmAck s r size addr =>
      change buf.length = fillpHlen + fillpConnConfirmAckLen at hlen
      change ∀ off w, off + w ≤ 12 + fillpConnConfirmAckLen → off + w ≤ buf.length at hfits
      change fillpDecodeConnConfirmAck buf = some ⟨s, r, size, addr⟩ at h
      rw [fillpDecodeConnConfirmAck, if_neg (not_not.mpr hlen), Option.some.injEq,
        FpConnConfirmAck.mk.injEq] at h
      obtain ⟨rfl, rfl, rfl, haddr⟩ := h
      show putU32 _ ++ (putU32 _ ++ (putU32 _ ++ (addr : Bytes))) = field 40 12 buf
      rw [← haddr, putU32_u32At (hfits 12 4 (by decide)), putU32_u32At (hfits 16 4 (by decide)),
        putU32_u32At (hfits 20 4 (by decide))]
      unfold fillpAddrLen
      rw [field_add 4 28 20, field_add 4 32 16, field_add 4 36 12]
  | nack type b e s random => simp [fieldsRead] at hwhole
  | pack seq pkt lost rcv => simp [fieldsRead] at hwhole
  | fin flag =>
      change buf.length = fillpHlen + fillpFinLen at hlen
      change ∀ off w, off + w ≤ 12 + fillpFinLen → off + w ≤ buf.length at hfits
      change fillpDecodeFin buf = some flag at h
      rw [fillpDecodeFin, if_neg (not_not.mpr hlen), Option.some.injEq] at h
      subst h
      exact putU16_u16At (hfits 12 2 (by decide))

/-- **Encoding what was decoded** gives the bytes of the fields back. -/
theorem fields_of_decoded {m : FpMgmt} {buf : Bytes} (h : m.Decoded buf)
    (hlen : buf.length = fillpHlen + m.payloadLen) {w : ℕ × ℕ} (hw : w ∈ m.fieldsRead) :
    field w.2 w.1 (m.head ++ m.payload) = field w.2 w.1 buf := by
  have hwhole : m.fieldsRead = [(12, m.payloadLen)] →
      field w.2 w.1 (m.head ++ m.payload) = field w.2 w.1 buf := by
    intro hfields
    rw [hfields, List.mem_singleton] at hw
    rw [hw, ← payload_of_decoded h hlen hfields]
    exact field_append_last _ _ m.head_length m.payload_length
  cases m with
  | nack type b e s random =>
      change buf.length = fillpHlen + fillpNackLen at hlen
      change fillpDecodeNack buf = some ⟨b, e, s⟩ at h
      rw [fillpDecodeNack, if_neg (not_not.mpr hlen), Option.map_eq_some_iff] at h
      obtain ⟨hd, hdec, hfields⟩ := h
      obtain ⟨-, -, -, -, -, hpkt, hseq⟩ := fillpDecodeHead_some hdec
      rw [FpNack.mk.injEq] at hfields
      obtain ⟨hb, he, hs⟩ := hfields
      unfold fillpHlen fillpNackLen at hlen
      change w ∈ [(4, 4), (8, 4), (12, 4)] at hw
      simp only [List.mem_cons, List.not_mem_nil, or_false] at hw
      have hfour : putU32 (u32At buf 4) = field 4 4 buf := putU32_u32At (by omega)
      have height : putU32 (u32At buf 8) = field 4 8 buf := putU32_u32At (by omega)
      have htwelve : putU32 (u32At buf 12) = field 4 12 buf := putU32_u32At (by omega)
      rcases hw with rfl | rfl | rfl
      · show field 4 4 _ = field 4 4 buf
        rw [← hfour, ← hpkt, hb]
        exact field_head_pktNum _ _ _ _ _ _
      · show field 4 8 _ = field 4 8 buf
        rw [← height, ← hseq, hs]
        exact field_head_seqNum _ _ _ _ _ _
      · show field 4 12 _ = field 4 12 buf
        rw [← htwelve, ← UInt32.add_sub_cancel (u32At buf 12) 1, he]
        exact field_append _ _ _ (head_length _) (by simp)
  | pack seq pkt lost rcv =>
      change buf.length = fillpHlen + fillpPackLen at hlen
      change fillpDecodePack buf = some ⟨seq, pkt, lost, rcv⟩ at h
      rw [fillpDecodePack, if_neg (by omega), Option.map_eq_some_iff] at h
      obtain ⟨hd, hdec, hfields⟩ := h
      obtain ⟨-, -, -, -, -, hpkt, hseq⟩ := fillpDecodeHead_some hdec
      rw [FpPack.mk.injEq] at hfields
      obtain ⟨hs, hp, hl, hr⟩ := hfields
      unfold fillpHlen fillpPackLen at hlen
      change w ∈ [(4, 4), (8, 4), (24, 4), (42, 4)] at hw
      simp only [List.mem_cons, List.not_mem_nil, or_false] at hw
      have hfour : putU32 (u32At buf 4) = field 4 4 buf := putU32_u32At (by omega)
      have height : putU32 (u32At buf 8) = field 4 8 buf := putU32_u32At (by omega)
      have hlost : putU32 (u32At buf 24) = field 4 24 buf := putU32_u32At (by omega)
      have hrcv : putU32 (u32At buf 42) = field 4 42 buf := putU32_u32At (by omega)
      rcases hw with rfl | rfl | rfl | rfl
      · show field 4 4 _ = field 4 4 buf
        rw [← hfour, ← hpkt, hp]
        exact field_head_pktNum _ _ _ _ _ _
      · show field 4 8 _ = field 4 8 buf
        rw [← height, ← hseq, hs]
        exact field_head_seqNum _ _ _ _ _ _
      · show field 4 24 _ = field 4 24 buf
        rw [← hlost, hl, payload, ← List.append_assoc]
        exact field_append _ _ _ (by simp) (by simp)
      · show field 4 42 _ = field 4 42 buf
        rw [← hrcv, hr, payload, ← List.append_assoc, ← List.append_assoc, ← List.append_assoc]
        exact field_append _ _ _ (by simp) (by simp)
  | connReq p s r t => exact hwhole rfl
  | connReqAck tag cookie t => exact hwhole rfl
  | connConfirm tag cookie addr => exact hwhole rfl
  | connConfirmAck s r size addr => exact hwhole rfl
  | fin flag => exact hwhole rfl

end FpMgmt

/-! ## The codec -/

/-- What holds of the codec as a whole. -/
structure FpCodec : Prop where
  /-- A bare head comes back as it was. -/
  head : ∀ type extra dataLen pktNum seqNum payload, type < 16 → extra < 256 →
    fillpDecodeHead (fillpEncodeHead type extra dataLen pktNum seqNum ++ payload) =
      some ⟨type, extra, dataLen, pktNum, seqNum⟩
  /-- And so do its bytes. -/
  headBytes : ∀ buf h, fillpDecodeHead buf = some h →
    fillpEncodeHead h.type h.flags h.dataLen h.pktNum h.seqNum = field 12 0 buf
  room : ∀ (m : FpMgmt) cap, (m.encode cap).isSome ↔ fillpHlen + m.payloadLen ≤ cap
  written : ∀ (m : FpMgmt) cap buf, m.encode cap = some buf →
    buf.length = fillpHlen + m.payloadLen ∧ (u16At buf 0).toNat / 4096 = 0 ∧
      fillpDecodeHead buf =
        some ⟨m.type.code, 0, UInt16.ofNat m.payloadLen, m.pktNum, m.seqNum⟩ ∧
      m.Decoded buf
  rewritten : ∀ (m : FpMgmt) buf, m.Decoded buf → buf.length = fillpHlen + m.payloadLen →
    ∃ out, m.encode (fillpHlen + m.payloadLen) = some out ∧
      ∀ w ∈ m.fieldsRead, field w.2 w.1 out = field w.2 w.1 buf

/-- **The codec of the management datagrams.** -/
theorem fp_codec : FpCodec := by
  constructor
  · intro type extra dataLen pktNum seqNum payload htype hextra
    rw [fillpDecodeHead_encode, Nat.mod_eq_of_lt htype, Nat.mod_eq_of_lt hextra]
  · intro buf h hdec
    exact fillpEncodeHead_decode hdec
  · intro m cap
    rw [m.encode_eq]
    split
    · rename_i hshort
      simp only [Option.isSome_none, Bool.false_eq_true, false_iff]
      omega
    · rename_i hroom
      simp only [Option.isSome_some, true_iff]
      omega
  · intro m cap buf henc
    have hhead : fillpDecodeHead (m.head ++ m.payload) =
        some ⟨m.type.code, 0, UInt16.ofNat m.payloadLen, m.pktNum, m.seqNum⟩ := by
      rw [FpMgmt.head, fillpDecodeHead_encode, Nat.mod_eq_of_lt m.type.code_lt]
    obtain ⟨-, hversion, -⟩ := fillpDecodeHead_some hhead
    rw [FpMgmt.encode_some henc]
    refine ⟨?_, Nat.div_eq_of_lt hversion, hhead, m.decoded_encode⟩
    rw [List.length_append, m.head_length, m.payload_length]
    rfl
  · intro m buf hdec hlen
    refine ⟨m.head ++ m.payload, ?_, fun w hw => FpMgmt.fields_of_decoded hdec hlen hw⟩
    rw [m.encode_eq, if_neg (Nat.lt_irrefl _)]

/-! ### The flag word -/

/-- A PACK with the flag of a last packet, which the encoder does not write. -/
def flaggedPack : Bytes :=
  fillpEncodeHead FpPktType.pack.code 0x40 46 7 700 ++ (FpMgmt.pack 700 7 700 0).payload

/-- The same datagram with another version in the flag word. -/
def otherVersionPack : Bytes := 0x15 :: flaggedPack.tail

/-- The PACK decoder reads the flag word, since it rejects another version. The datagram
it accepts comes back with another flag word. -/
theorem not_fp_codec_flag_word :
    flaggedPack.length = fillpHlen + fillpPackLen ∧
      (FpMgmt.pack 700 7 700 0).Decoded flaggedPack ∧
      fillpDecodePack otherVersionPack = none ∧
      ¬ ∃ out, (FpMgmt.pack 700 7 700 0).encode (fillpHlen + fillpPackLen) = some out ∧
        field 2 0 out = field 2 0 flaggedPack := by
  refine ⟨by decide, rfl, by decide, ?_⟩
  rintro ⟨out, henc, hfield⟩
  rw [FpMgmt.encode_some henc] at hfield
  exact absurd hfield (by decide)

end HwPhoneLink.Fillp
