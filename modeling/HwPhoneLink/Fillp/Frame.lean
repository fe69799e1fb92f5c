import HwPhoneLink.Lib.BigEndian

/-!
# The fillp packet codec

`fillp_frame.c`: the 12-byte head, the management datagrams and the handshake
cookie. A datagram is a byte list. An encoder that takes a capacity returns
`none` where the source returns `-1`; a decoder returns `none` where the source
returns `FALSE`. Shifts and masks on a 16-bit flag word are written as division
and remainder.
-/

namespace HwPhoneLink.Fillp

open BigEndian

/-! ## Sizes and packet types -/

def fillpHlen : ℕ := 12
def fillpCookieLen : ℕ := 108
def fillpAddrLen : ℕ := 28
def fillpConnReqLen : ℕ := 20
def fillpConnReqAckLen : ℕ := 120
def fillpConnConfirmLen : ℕ := 140
def fillpConnConfirmAckLen : ℕ := 40
def fillpNackLen : ℕ := 12
def fillpPackLen : ℕ := 46
def fillpFinLen : ℕ := 2

inductive FpPktType : Type where
  | data | connReq | nack | pack | fin
  | connReqAck | connConfirm | connConfirmAck | historyNack
deriving DecidableEq, Repr

/-- The nibble of a packet type on the wire. -/
def FpPktType.code : FpPktType → ℕ
  | .data => 0x1
  | .connReq => 0x2
  | .nack => 0x3
  | .pack => 0x5
  | .fin => 0x6
  | .connReqAck => 0xA
  | .connConfirm => 0xB
  | .connConfirmAck => 0xC
  | .historyNack => 0xD

/-- The packet type of a nibble; `none` is what the dispatcher ignores. -/
def FpPktType.ofCode : ℕ → Option FpPktType
  | 0x1 => some .data
  | 0x2 => some .connReq
  | 0x3 => some .nack
  | 0x5 => some .pack
  | 0x6 => some .fin
  | 0xA => some .connReqAck
  | 0xB => some .connConfirm
  | 0xC => some .connConfirmAck
  | 0xD => some .historyNack
  | _ => none

@[simp] theorem FpPktType.ofCode_code (t : FpPktType) : FpPktType.ofCode t.code = some t := by
  cases t <;> rfl

theorem FpPktType.code_lt (t : FpPktType) : t.code < 16 := by
  cases t <;> decide

/-! ## Head -/

/-- A decoded head. `type` is the raw nibble. -/
structure FpHead where
  type : ℕ
  flags : ℕ
  dataLen : UInt16
  pktNum : UInt32
  seqNum : UInt32
deriving DecidableEq, Repr

def fillpEncodeHead (type extra : ℕ) (dataLen : UInt16) (pktNum seqNum : UInt32) : Bytes :=
  putU16 (UInt16.ofNat (type % 16 * 256 + extra % 256)) ++
    (putU16 dataLen ++ (putU32 pktNum ++ putU32 seqNum))

def fillpDecodeHead (buf : Bytes) : Option FpHead :=
  if buf.length < fillpHlen then none
  else
    let flag := (u16At buf 0).toNat
    if flag / 4096 % 16 ≠ 0 then none
    else some
      { type := flag / 256 % 16, flags := flag % 256, dataLen := u16At buf 2
        pktNum := u32At buf 4, seqNum := u32At buf 8 }

@[simp] theorem fillpEncodeHead_length (type extra : ℕ) (dataLen : UInt16)
    (pktNum seqNum : UInt32) :
    (fillpEncodeHead type extra dataLen pktNum seqNum).length = fillpHlen := by
  simp [fillpEncodeHead, fillpHlen]

/-- **Head round trip.** A head followed by any payload decodes to the type
nibble, the low flag byte and the three fields it was built from. -/
theorem fillpDecodeHead_encode (type extra : ℕ) (dataLen : UInt16) (pktNum seqNum : UInt32)
    (payload : Bytes) :
    fillpDecodeHead (fillpEncodeHead type extra dataLen pktNum seqNum ++ payload) =
      some { type := type % 16, flags := extra % 256, dataLen := dataLen
             pktNum := pktNum, seqNum := seqNum } := by
  set flag := UInt16.ofNat (type % 16 * 256 + extra % 256) with hflag
  have hflagNat : flag.toNat = type % 16 * 256 + extra % 256 := by
    rw [hflag, UInt16.toNat_ofNat']
    omega
  have hsplit : fillpEncodeHead type extra dataLen pktNum seqNum ++ payload =
      putU16 flag ++ (putU16 dataLen ++ (putU32 pktNum ++ (putU32 seqNum ++ payload))) := by
    simp [fillpEncodeHead, hflag]
  set buf := fillpEncodeHead type extra dataLen pktNum seqNum ++ payload with hbuf
  have hword : u16At buf 0 = flag := by rw [hsplit]; exact u16At_zero _ _
  have hlen : u16At buf 2 = dataLen := by
    rw [hsplit]
    exact u16At_append _ _ _ (by simp)
  have hpkt : u32At buf 4 = pktNum := by
    rw [hsplit, ← List.append_assoc]
    exact u32At_append _ _ _ (by simp)
  have hseq : u32At buf 8 = seqNum := by
    rw [hsplit, ← List.append_assoc, ← List.append_assoc]
    exact u32At_append _ _ _ (by simp)
  have hge : ¬ buf.length < fillpHlen := by simp [hbuf]
  have hversion : (type % 16 * 256 + extra % 256) / 4096 % 16 = 0 := by omega
  have htype : (type % 16 * 256 + extra % 256) / 256 % 16 = type % 16 := by omega
  have hflags : (type % 16 * 256 + extra % 256) % 256 = extra % 256 := by omega
  simp only [fillpDecodeHead, if_neg hge, hword, hlen, hpkt, hseq, hflagNat, hversion, htype,
    hflags, ne_eq, not_true_eq_false, if_false]

/-- The packet type the dispatcher reads off a datagram. -/
def fpTypeOf (buf : Bytes) : Option FpPktType :=
  (fillpDecodeHead buf).bind fun h => FpPktType.ofCode h.type

@[simp] theorem fpTypeOf_encode (t : FpPktType) (extra : ℕ) (dataLen : UInt16)
    (pktNum seqNum : UInt32) (payload : Bytes) :
    fpTypeOf (fillpEncodeHead t.code extra dataLen pktNum seqNum ++ payload) = some t := by
  rw [fpTypeOf, fillpDecodeHead_encode, Option.bind_some, Nat.mod_eq_of_lt t.code_lt,
    FpPktType.ofCode_code]

/-! ## Management datagrams -/

def fillpEncodeConnReq (cap : ℕ) (cookiePreserveTimeUs sendCache recvCache : UInt32)
    (timestampUs : UInt64) : Option Bytes :=
  if cap < fillpHlen + fillpConnReqLen then none
  else some (fillpEncodeHead FpPktType.connReq.code 0 20 0 0 ++
    (putU32 cookiePreserveTimeUs ++ (putU32 sendCache ++ (putU32 recvCache ++ putU64 timestampUs))))

structure FpConnReq where
  cookiePreserveTimeUs : UInt32
  sendCache : UInt32
  recvCache : UInt32
  timestampUs : UInt64

def fillpDecodeConnReq (buf : Bytes) : Option FpConnReq :=
  if buf.length ≠ fillpHlen + fillpConnReqLen then none
  else some
    { cookiePreserveTimeUs := u32At buf 12, sendCache := u32At buf 16
      recvCache := u32At buf 20, timestampUs := u64At buf 24 }

def fillpEncodeConnReqAck (cap : ℕ) (tagCookie : UInt16) (cookie : Bytes) (timestampUs : UInt64) :
    Option Bytes :=
  if cap < fillpHlen + fillpConnReqAckLen then none
  else some (fillpEncodeHead FpPktType.connReqAck.code 0 120 0 0 ++
    (putU16 tagCookie ++ (putU16 108 ++ (cookie ++ putU64 timestampUs))))

structure FpConnReqAck where
  tagCookie : UInt16
  cookie : Bytes
  timestampUs : UInt64

def fillpDecodeConnReqAck (buf : Bytes) : Option FpConnReqAck :=
  if buf.length ≠ fillpHlen + fillpConnReqAckLen then none
  else if u16At buf 14 ≠ 108 then none
  else some
    { tagCookie := u16At buf 12, cookie := field fillpCookieLen 16 buf
      timestampUs := u64At buf 124 }

def fillpEncodeConnConfirm (cap : ℕ) (tagCookie : UInt16) (cookie localAddr : Bytes) :
    Option Bytes :=
  if cap < fillpHlen + fillpConnConfirmLen then none
  else some (fillpEncodeHead FpPktType.connConfirm.code 0 140 0 0 ++
    (putU16 tagCookie ++ (putU16 108 ++ (cookie ++ localAddr))))

structure FpConnConfirm where
  tagCookie : UInt16
  cookie : Bytes
  localAddr : Bytes

def fillpDecodeConnConfirm (buf : Bytes) : Option FpConnConfirm :=
  if buf.length ≠ fillpHlen + fillpConnConfirmLen then none
  else if u16At buf 14 ≠ 108 then none
  else some
    { tagCookie := u16At buf 12, cookie := field fillpCookieLen 16 buf
      localAddr := field fillpAddrLen 124 buf }

def fillpEncodeConnConfirmAck (cap : ℕ) (sendCache recvCache pktSize : UInt32)
    (localAddr : Bytes) : Option Bytes :=
  if cap < fillpHlen + fillpConnConfirmAckLen then none
  else some (fillpEncodeHead FpPktType.connConfirmAck.code 0 40 0 0 ++
    (putU32 sendCache ++ (putU32 recvCache ++ (putU32 pktSize ++ localAddr))))

structure FpConnConfirmAck where
  sendCache : UInt32
  recvCache : UInt32
  pktSize : UInt32
  localAddr : Bytes

def fillpDecodeConnConfirmAck (buf : Bytes) : Option FpConnConfirmAck :=
  if buf.length ≠ fillpHlen + fillpConnConfirmAckLen then none
  else some
    { sendCache := u32At buf 12, recvCache := u32At buf 16, pktSize := u32At buf 20
      localAddr := field fillpAddrLen 24 buf }

/-- The payload carries `endPkt - 1`: "retransmit (begin, end)". -/
def fillpEncodeNack (cap : ℕ) (type : FpPktType) (beginPkt endPkt seqNum : UInt32)
    (randomNum : UInt64) : Option Bytes :=
  if cap < fillpHlen + fillpNackLen then none
  else some (fillpEncodeHead type.code 0 12 beginPkt seqNum ++
    (putU32 (endPkt - 1) ++ putU64 randomNum))

structure FpNack where
  beginPkt : UInt32
  endPkt : UInt32
  seqNum : UInt32

def fillpDecodeNack (buf : Bytes) : Option FpNack :=
  if buf.length ≠ fillpHlen + fillpNackLen then none
  else (fillpDecodeHead buf).map fun h =>
    { beginPkt := h.pktNum, endPkt := u32At buf 12 + 1, seqNum := h.seqNum }

def fillpEncodePack (cap : ℕ) (ackSeq ackPkt lostSeq rcvListBytes : UInt32) : Option Bytes :=
  if cap < fillpHlen + fillpPackLen then none
  else some (fillpEncodeHead FpPktType.pack.code 0 46 ackPkt ackSeq ++
    (putU16 0 ++ putU16 0 ++ putU32 0 ++ putU32 0 ++ (putU32 lostSeq ++
      (putU32 0 ++ putU32 0 ++ putU32 0 ++ putU16 0 ++ (putU32 rcvListBytes ++
        (putU32 0 ++ putU32 0 ++ putU32 0))))))

structure FpPack where
  ackSeq : UInt32
  ackPkt : UInt32
  lostSeq : UInt32
  rcvListBytes : UInt32

def fillpDecodePack (buf : Bytes) : Option FpPack :=
  if buf.length < fillpHlen + fillpPackLen then none
  else (fillpDecodeHead buf).map fun h =>
    { ackSeq := h.seqNum, ackPkt := h.pktNum, lostSeq := u32At buf 24
      rcvListBytes := u32At buf 42 }

/-- **PACK round trip** for the four fields a PACK carries. -/
theorem fillpDecodePack_encode {cap : ℕ} {ackSeq ackPkt lostSeq rcvListBytes : UInt32}
    {buf : Bytes} (h : fillpEncodePack cap ackSeq ackPkt lostSeq rcvListBytes = some buf) :
    fillpDecodePack buf = some ⟨ackSeq, ackPkt, lostSeq, rcvListBytes⟩ := by
  unfold fillpEncodePack at h
  split at h
  · cases h
  simp only [Option.some.injEq] at h
  set head := fillpEncodeHead FpPktType.pack.code 0 46 ackPkt ackSeq with hhead
  have hheadLen : head.length = 12 := by simp [hhead, fillpHlen]
  have hlost : u32At buf 24 = lostSeq := by
    rw [← h, ← List.append_assoc]
    exact u32At_append _ _ _ (by simp [hheadLen])
  have hrcv : u32At buf 42 = rcvListBytes := by
    rw [← h, ← List.append_assoc, ← List.append_assoc, ← List.append_assoc]
    exact u32At_append _ _ _ (by simp [hheadLen])
  have hlen : ¬ buf.length < fillpHlen + fillpPackLen := by
    rw [← h]
    simp [hheadLen, fillpHlen, fillpPackLen]
  rw [fillpDecodePack, if_neg hlen, hlost, hrcv, ← h, hhead, fillpDecodeHead_encode]
  rfl

/-- **NACK round trip.** The decoder undoes the `- 1` of the encoder. -/
theorem fillpDecodeNack_encode {cap : ℕ} {type : FpPktType} {beginPkt endPkt seqNum : UInt32}
    {randomNum : UInt64} {buf : Bytes}
    (h : fillpEncodeNack cap type beginPkt endPkt seqNum randomNum = some buf) :
    fillpDecodeNack buf = some ⟨beginPkt, endPkt, seqNum⟩ := by
  unfold fillpEncodeNack at h
  split at h
  · cases h
  simp only [Option.some.injEq] at h
  have hend : u32At buf 12 = endPkt - 1 := by
    rw [← h]
    exact u32At_append _ _ _ (by simp [fillpHlen])
  have hlen : ¬ buf.length ≠ fillpHlen + fillpNackLen := by
    rw [← h]
    simp [fillpNackLen]
  rw [fillpDecodeNack, if_neg hlen, hend, UInt32.sub_add_cancel, ← h, fillpDecodeHead_encode]
  rfl

def fillpEncodeFin (cap : ℕ) (flag : UInt16) : Option Bytes :=
  if cap < fillpHlen + fillpFinLen then none
  else some (fillpEncodeHead FpPktType.fin.code 0 2 0 0 ++ putU16 flag)

def fillpDecodeFin (buf : Bytes) : Option UInt16 :=
  if buf.length ≠ fillpHlen + fillpFinLen then none
  else some (u16At buf 12)

/-! ## Cookie -/

def fillpAddrFillIpv4 (port : UInt16) (ipv4 : Bytes) : Bytes :=
  putU16 2 ++ putU16 port ++ ipv4 ++ List.replicate (fillpAddrLen - 8) 0

section Cookie

-- HMAC-SHA256 of a message under a key
variable (hmacSha256 : Bytes → Bytes → Bytes)

/-- The cookie digest: `cookie[32..108)` followed by the local address. -/
def cookieHmac (cookie localAddr macKey : Bytes) : Bytes :=
  hmacSha256 macKey (cookie.drop 32 ++ localAddr)

structure FpCookieFields where
  genTimeUs : UInt64
  lifeTimeUs : UInt32
  localPktSeq : UInt32
  localMsgSeq : UInt32
  remotePktSeq : UInt32
  remoteMsgSeq : UInt32
  remoteSendCache : UInt32
  remoteRecvCache : UInt32
  srcPort : UInt16
  addrType : UInt16
  remoteAddr : Bytes

/-- The 76 bytes behind the digest. -/
def FpCookieFields.body (c : FpCookieFields) : Bytes :=
  putU64 c.genTimeUs ++ List.replicate 8 0 ++ putU32 c.lifeTimeUs ++ putU32 c.localPktSeq ++
    putU32 c.remotePktSeq ++ putU32 c.localMsgSeq ++ putU32 c.remoteMsgSeq ++
    putU32 c.remoteSendCache ++ putU32 c.remoteRecvCache ++ putU16 c.srcPort ++
    putU16 c.addrType ++ c.remoteAddr

def fillpCookieFill (macKey : Bytes) (c : FpCookieFields) (localAddr : Bytes) : Bytes :=
  cookieHmac hmacSha256 (List.replicate 32 0 ++ c.body) localAddr macKey ++ c.body

def fillpCookieVerify (cookie macKey localAddr : Bytes) : Bool :=
  cookie.take 32 == cookieHmac hmacSha256 cookie localAddr macKey

end Cookie

end HwPhoneLink.Fillp
